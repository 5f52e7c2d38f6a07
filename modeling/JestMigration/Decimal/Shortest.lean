/-
# `Decimal.Shortest` — the shortest decimal form of a double

A double is shown with the fewest digits that stand for it, and of those with
the nearest to it.  A `Style` says which of two as near is taken, and whether
very large and very small numbers are written with an exponent.
-/
import JestMigration.Decimal.Double

namespace JestMigration.Decimal

/-- Decimal places that every double can be written with in full. -/
def places : Nat := 1100

/-- The digits of a natural number. -/
def digits (n : Nat) : List Char :=
  Nat.toDigits 10 n

/-- How a number is written. -/
structure Style where
  /-- Of two forms as near, take the one with the even last digit; else the larger. -/
  tiesToEven : Bool
  /-- The least and the greatest decimal exponent without an exponent in the text; none if there is
  never one. -/
  plain? : Option (Int × Int)

/-- All digits are written out. -/
def Style.writtenOut : Style := ⟨false, none⟩

/-- Numbers below `10 ^ (-5)` and from `10 ^ 16` on have an exponent. -/
def Style.withExponent : Style := ⟨true, some (-5, 15)⟩

namespace Double

/-- The double in full, in units of `10 ^ (-places)`. -/
def exact (double : Double) : Nat :=
  double.units * Nat.pow 10 places / Nat.pow 2 1074

/-- The multiples of `unit` next to the double, the one to be preferred first. -/
def neighbours (style : Style) (double : Double) (unit : Nat) : List Nat :=
  let exact := double.exact
  let below := exact / unit * unit
  let above := below + unit
  let takeBelow :=
    if exact - below = above - exact then style.tiesToEven && exact / unit % 2 == 0
    else decide (exact - below < above - exact)
  if takeBelow then [below, above] else [above, below]

/-- The shortest form among those with at most `count` digits from `given` on, in units of
`10 ^ (-places)`; `length` is the number of digits of the double in full. -/
def search (style : Style) (double : Double) (length : Nat) : (count given : Nat) → Nat
  | 0, _ => double.exact
  | count + 1, given =>
    let standsFor := fun candidate => nearest candidate (Nat.pow 10 places) == double
    match (double.neighbours style (Nat.pow 10 (length - given))).find? standsFor with
    | some candidate => candidate
    | none => double.search style length count (given + 1)

/-- The shortest form, in units of `10 ^ (-places)`. -/
def shortest (style : Style) (double : Double) : Nat :=
  double.search style (digits double.exact).length 17 1

end Double

/-- Drops zeros at the end. -/
def dropLastZeros (digits : List Char) : List Char :=
  (digits.reverse.dropWhile (· == '0')).reverse

/-- Writes a number of units of `10 ^ (-places)` with a point and at least one digit after it. -/
def positional (units : Nat) : String :=
  let whole := digits (units / Nat.pow 10 places)
  let fraction := (digits (units % Nat.pow 10 places + Nat.pow 10 places)).drop 1
  let shown := dropLastZeros fraction
  String.ofList (whole ++ ['.'] ++ if shown.isEmpty then ['0'] else shown)

/-- The exponent of the first digit of a number of units of `10 ^ (-places)`. -/
def exponentOf (units : Nat) : Int :=
  ((digits units).length : Int) - 1 - places

/-- Writes a number of units of `10 ^ (-places)` with one digit before the point and an exponent. -/
def scientific (units : Nat) : String :=
  let exponent := exponentOf units
  let shown := dropLastZeros (digits units)
  let fraction := if shown.length ≤ 1 then [] else '.' :: shown.drop 1
  let sign := if exponent < 0 then '-' else '+'
  String.ofList (shown.take 1 ++ fraction ++ ['e', sign] ++ digits exponent.natAbs)

/-- A double with its sign. -/
structure Signed where
  negative : Bool
  double : Double
  deriving DecidableEq

/-- Is the number past the largest finite one? -/
def Signed.isInfinite (signed : Signed) : Bool :=
  signed.double.isInfinite

/-- How a number is shown in a style. -/
def Signed.shown (style : Style) (signed : Signed) : String :=
  let sign := if signed.negative then "-" else ""
  let double := signed.double
  if double.isZero then sign ++ "0.0"
  else if double.isInfinite then sign ++ "inf"
  else
    let units := double.shortest style
    let isPlain := match style.plain? with
      | none => true
      | some (least, greatest) =>
        decide (least ≤ exponentOf units) && decide (exponentOf units ≤ greatest)
    sign ++ if isPlain then positional units else scientific units

end JestMigration.Decimal
