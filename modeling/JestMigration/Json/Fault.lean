/-
# `Json.Fault` — why a document could not be written

The text of a fault may end in the position it belongs to, as in `… at line 3
column 7`.  Lines count from 1: line 0 says that there is no position, and then
none is shown.  A text that only resembles this is the reason as a whole.
-/

namespace JestMigration.Json

/-- A position in a document. -/
structure Position where
  line : Nat
  column : Nat
  deriving DecidableEq

/-- Why a document could not be written, and where. -/
structure Fault where
  reason : String
  position? : Option Position
  deriving DecidableEq

namespace Fault

/-- What stands before and after the last occurrence of a mark. -/
def splitLast? (mark : List Char) : List Char → Option (List Char × List Char)
  | [] => none
  | c :: rest =>
    match splitLast? mark rest with
    | some (before, after) => some (c :: before, after)
    | none =>
      if mark.isPrefixOf (c :: rest) then some ([], (c :: rest).drop mark.length) else none

/-- Digits as a number of 64 bits. -/
def number? (digits : List Char) : Option Nat :=
  let value := digits.foldl (fun sum c => 10 * sum + (c.toNat - '0'.toNat)) 0
  if digits.isEmpty ∨ Nat.pow 2 64 ≤ value then none else some value

/-- Reads a position that is all of a text: a line, the word for the column, and the column. -/
def readPosition? (text : List Char) : Option Position :=
  let mark := " column ".toList
  let afterLine := text.dropWhile Char.isDigit
  let column := afterLine.drop mark.length
  if mark.isPrefixOf afterLine && column.all Char.isDigit then
    match number? (text.takeWhile Char.isDigit), number? column with
    | some line, some column => some ⟨line, column⟩
    | _, _ => none
  else
    none

/-- The fault with a given text. -/
def ofText (text : String) : Fault :=
  match splitLast? " at line ".toList text.toList with
  | none => ⟨text, none⟩
  | some (reason, rest) =>
    match readPosition? rest with
    | none => ⟨text, none⟩
    | some position =>
      ⟨String.ofList reason, if position.line = 0 then none else some position⟩

/-- The fault in words. -/
def message (fault : Fault) : String :=
  match fault.position? with
  | none => fault.reason
  | some position => s!"{fault.reason} at line {position.line} column {position.column}"

end Fault

end JestMigration.Json
