/-
# `Decimal.Double` — doubles and their rounding

All numbers are naturals: a positive double is its mantissa times a power of
two, counted in units of the smallest double.  A fraction is rounded to the
nearest double, ties going to the even mantissa; products and quotients of
doubles are their exact values rounded in that way.
-/

namespace JestMigration.Decimal

/-- A double without its sign, `mantissa * 2 ^ shift` units of `2 ^ (-1074)`. -/
structure Double where
  mantissa : Nat
  shift : Nat
  deriving DecidableEq

/-- The quotient rounded to the nearest natural, ties to the even one. -/
def roundDiv (num den : Nat) : Nat :=
  let quotient := num / den
  let twice := 2 * (num % den)
  if twice < den then quotient
  else if den < twice then quotient + 1
  else quotient + quotient % 2

/-- The double nearest to a fraction. -/
def nearest (num den : Nat) : Double :=
  let units := num * Nat.pow 2 1074
  let shift := (units / den).log2 + 1 - 53
  let mantissa := roundDiv units (den * Nat.pow 2 shift)
  if mantissa = Nat.pow 2 53 then ⟨Nat.pow 2 52, shift + 1⟩ else ⟨mantissa, shift⟩

namespace Double

/-- The double zero. -/
def zero : Double := ⟨0, 0⟩

/-- A double past the largest finite one. -/
def infinity : Double := ⟨Nat.pow 2 52, 2046⟩

/-- Is the double zero? -/
def isZero (double : Double) : Bool :=
  double.mantissa == 0

/-- Is the double past the largest finite one? -/
def isInfinite (double : Double) : Bool :=
  decide (2045 < double.shift)

/-- The double nearest to a natural number. -/
def ofNat (n : Nat) : Double :=
  nearest n 1

/-- The double nearest to a power of ten. -/
def powerOfTen (exponent : Nat) : Double :=
  ofNat (Nat.pow 10 exponent)

/-- A double in units of the smallest one. -/
def units (double : Double) : Nat :=
  double.mantissa * Nat.pow 2 double.shift

/-- The product, rounded. -/
def mul (a b : Double) : Double :=
  nearest (a.units * b.units) (Nat.pow 2 2148)

/-- The quotient, rounded. -/
def div (a b : Double) : Double :=
  nearest a.units b.units

end Double

end JestMigration.Decimal
