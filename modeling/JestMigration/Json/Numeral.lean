/-
# `Json.Numeral` — numbers in JSON texts

A number without point and exponent that fits into 64 bits, with or without a
sign, is an integer; every other one is a double, minus zero included.  Of its
digits only those that fit into 64 bits count; the others only move the point.
-/
import JestMigration.Decimal.Literal
import JestMigration.Options

namespace JestMigration.Json

/-- A number as it is written. -/
structure Numeral where
  negative : Bool
  whole : List Char
  /-- The digits after the point, if there is one. -/
  fraction? : Option (List Char)
  /-- The exponent, if there is one. -/
  exponent? : Option Int

namespace Numeral

/-- The value of a decimal digit. -/
def digitValue (c : Char) : Nat :=
  c.toNat - '0'.toNat

/-- The number that digits stand for. -/
def valueOf (digits : List Char) : Nat :=
  digits.foldl (fun sum c => 10 * sum + digitValue c) 0

/-- Drops a character from the front: was it there? -/
def drop (mark : Char) : List Char → Bool × List Char
  | c :: rest => if c = mark then (true, rest) else (false, c :: rest)
  | [] => (false, [])

/-- Reads the exponent after its mark. -/
def readExponent (text : List Char) : Int :=
  let (negative, unsigned) := drop '-' text
  let (_, digits) := drop '+' unsigned
  let magnitude : Int := valueOf (digits.takeWhile Char.isDigit)
  if negative then -magnitude else magnitude

/-- Reads a number from its text. -/
def ofText (text : String) : Numeral :=
  let (negative, unsigned) := drop '-' text.toList
  let (point, afterPoint) := drop '.' (unsigned.dropWhile Char.isDigit)
  let afterFraction := if point then afterPoint.dropWhile Char.isDigit else afterPoint
  { negative
    whole := unsigned.takeWhile Char.isDigit
    fraction? := if point then some (afterPoint.takeWhile Char.isDigit) else none
    exponent? := match afterFraction with
      | _ :: exponent => some (readExponent exponent)
      | [] => none }

/-- Takes digits into a number as long as it fits into 64 bits: the number, and how many. -/
def gather (sum : Nat) : List Char → Nat × Nat
  | [] => (sum, 0)
  | c :: rest =>
    let next := 10 * sum + digitValue c
    if next < Nat.pow 2 64 then
      let (total, taken) := gather next rest
      (total, taken + 1)
    else
      (sum, 0)

/-- The literal made of the digits that count. -/
def literal (numeral : Numeral) : Decimal.Literal :=
  let (whole, wholeTaken) := gather 0 numeral.whole
  let (mantissa, fractionTaken) := gather whole (numeral.fraction?.getD [])
  let moved : Int := (numeral.whole.length - wholeTaken : Nat) - (fractionTaken : Int)
  ⟨numeral.negative, mantissa, moved + numeral.exponent?.getD 0⟩

/-- The integer that a number is, if it is one. -/
def integer? (numeral : Numeral) : Option Int :=
  let magnitude := valueOf numeral.whole
  if numeral.fraction?.isSome || numeral.exponent?.isSome then none
  else if numeral.negative then
    if 0 < magnitude ∧ magnitude ≤ Nat.pow 2 63 then some (-(magnitude : Int)) else none
  else
    if magnitude < Nat.pow 2 64 then some magnitude else none

/-- The number as a setting. -/
def setting (numeral : Numeral) : Setting :=
  match numeral.integer? with
  | some value => .integer value
  | none => .real (numeral.literal.scale.shown .withExponent)

end Numeral

end JestMigration.Json
