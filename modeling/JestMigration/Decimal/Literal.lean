/-
# `Decimal.Literal` — decimal literals and the doubles they stand for

`Literal.round` takes the double nearest to a literal.  `Literal.scale` rounds
its digits and a power of ten to doubles first and then multiplies or divides
them, so that it may miss the nearest double by a little.
-/
import JestMigration.Decimal.Shortest

namespace JestMigration.Decimal

/-- A decimal literal `mantissa * 10 ^ exponent`. -/
structure Literal where
  negative : Bool
  mantissa : Nat
  exponent : Int

namespace Literal

/-- The double nearest to a literal without its sign.  Beyond the bounds on the exponent of the
first digit every literal is zero or infinite. -/
def nearestDouble (literal : Literal) : Double :=
  let size := literal.exponent + (digits literal.mantissa).length
  if literal.mantissa = 0 ∨ size < -400 then .zero
  else if 400 < size then .infinity
  else
    match literal.exponent with
    | .ofNat up => nearest (literal.mantissa * Nat.pow 10 up) 1
    | .negSucc down => nearest literal.mantissa (Nat.pow 10 (down + 1))

/-- The double nearest to a literal. -/
def round (literal : Literal) : Signed :=
  ⟨literal.negative, literal.nearestDouble⟩

/-- The digits of a literal, rounded, times or by a power of ten, rounded.  A power of ten that is
no double is divided by in two steps. -/
def scaledDouble (literal : Literal) : Double :=
  let digits := Double.ofNat literal.mantissa
  match literal.exponent with
  | .ofNat up =>
    if digits.isZero then .zero
    else if 308 < up then .infinity
    else digits.mul (.powerOfTen up)
  | .negSucc pred =>
    let down := pred + 1
    if down ≤ 308 then digits.div (.powerOfTen down)
    else if down ≤ 616 then (digits.div (.powerOfTen 308)).div (.powerOfTen (down - 308))
    else .zero

/-- The double that a literal is scaled to. -/
def scale (literal : Literal) : Signed :=
  ⟨literal.negative, literal.scaledDouble⟩

end Literal

end JestMigration.Decimal
