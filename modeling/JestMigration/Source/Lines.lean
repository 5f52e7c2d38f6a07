/-
# `Source.Lines` — line breaks, line numbers and whole lines

The grammar knows two line breaks, LF and CRLF.  A carriage return that stands
alone is handed to the parser as a line feed (`normalizeReturns`), byte for
byte, so that offsets keep their meaning; line numbers are counted in that
form.  Everything else works on the text as it is written, where a lone
carriage return ends no line.

A statement that is alone on its line is deleted with the line
(`statementLine`), and where asked with the blank lines after it
(`statementLines`).
-/
import JestMigration.Source

namespace JestMigration

/-- The byte LF. -/
def lineFeed : UInt8 := 10

/-- The byte CR. -/
def carriageReturn : UInt8 := 13

/-- Spaces and tabs, the bytes that indent a line. -/
def isIndent (byte : UInt8) : Bool :=
  byte == 32 || byte == 9

/-- Bytes a blank line may hold before its line feed. -/
def isBlankByte (byte : UInt8) : Bool :=
  isIndent byte || byte == carriageReturn

/-! ## Carriage returns that stand alone -/

/-- Does `byte`, followed by `rest`, stand for a line break of its own? -/
def isLoneReturn (byte : UInt8) (rest : List UInt8) : Bool :=
  byte == carriageReturn && rest.head? != some lineFeed

/-- Is there a carriage return that no line feed follows? -/
def hasLoneReturn : List UInt8 → Bool
  | [] => false
  | byte :: rest => isLoneReturn byte rest || hasLoneReturn rest

/-- Every lone carriage return becomes a line feed. -/
def replaceLoneReturns : List UInt8 → List UInt8
  | [] => []
  | byte :: rest =>
    (if isLoneReturn byte rest then lineFeed else byte) :: replaceLoneReturns rest

/-- The bytes the parser reads: as written when no carriage return stands alone. -/
def normalizeReturns (bytes : List UInt8) : List UInt8 :=
  if hasLoneReturn bytes then replaceLoneReturns bytes else bytes

namespace Source

/-- The number of the line that holds an offset, counted from one. -/
def lineAt (source : Source) (offset : Nat) : Nat :=
  1 + ((normalizeReturns source.bytes).take offset).count lineFeed

/-! ## Whole lines -/

/-- The first offset at or after `offset` whose byte fails `p`. -/
def skipWhile (source : Source) (p : UInt8 → Bool) (offset : Nat) : Nat :=
  offset + ((source.bytes.drop offset).takeWhile p).length

/-- The offset reached from `offset` by going left over bytes that satisfy `p`. -/
def skipWhileBack (source : Source) (p : UInt8 → Bool) (offset : Nat) : Nat :=
  offset - ((source.bytes.take offset).reverse.takeWhile p).length

/-- A line starts at the beginning of the text and after each line feed. -/
def isLineStart (source : Source) (offset : Nat) : Bool :=
  offset == 0 || source.byte? (offset - 1) == some lineFeed

/-- Where the line ends whose last visible byte is before `offset`: after LF or CRLF, or at the
end of the text. -/
def lineEnd? (source : Source) (offset : Nat) : Option Nat :=
  match source.byte? offset with
  | none => some offset
  | some byte =>
    if byte == lineFeed then
      some (offset + 1)
    else if byte == carriageReturn && source.byte? (offset + 1) == some lineFeed then
      some (offset + 2)
    else
      none

/-- The span to delete for a statement: its whole line when nothing else is on it, else the
statement alone. -/
def statementLine (source : Source) (statement : Span) : Span :=
  let start := source.skipWhileBack isIndent statement.start
  let stop := source.skipWhile isIndent statement.stop
  if source.isLineStart start then
    match source.lineEnd? stop with
    | some stop => ⟨start, stop⟩
    | none => statement
  else
    statement

/-- The end of the blank line that begins at `offset`, if there is one. -/
def blankLineEnd? (source : Source) (offset : Nat) : Option Nat :=
  let stop := source.skipWhile isBlankByte offset
  if source.byte? stop == some lineFeed then some (stop + 1) else none

theorem le_skipWhile (source : Source) (p : UInt8 → Bool) (offset : Nat) :
    offset ≤ source.skipWhile p offset :=
  Nat.le_add_right _ _

theorem lt_size_of_byte? {source : Source} {offset : Nat} {byte : UInt8}
    (h : source.byte? offset = some byte) : offset < source.size := by
  rw [byte?_eq_getElem?] at h
  have := (List.getElem?_eq_some_iff.mp h).1
  simpa using this

/-- A blank line takes at least its line feed, and lies inside the text. -/
theorem blankLineEnd?_bounds {source : Source} {offset next : Nat}
    (h : source.blankLineEnd? offset = some next) : offset < next ∧ next ≤ source.size := by
  unfold blankLineEnd? at h
  simp only [beq_iff_eq] at h
  split at h
  · rename_i hb
    have hlt := lt_size_of_byte? hb
    have hle := source.le_skipWhile isBlankByte offset
    cases h
    omega
  · exact absurd h (by simp)

/-- The offset after all blank lines that begin at `offset`. -/
def skipBlankLines (source : Source) (offset : Nat) : Nat :=
  match _h : source.blankLineEnd? offset with
  | some next => source.skipBlankLines next
  | none => offset
termination_by source.size - offset
decreasing_by
  have := blankLineEnd?_bounds _h
  omega

/-- The span to delete for a statement together with the blank lines that follow its line. -/
def statementLines (source : Source) (statement : Span) : Span :=
  let line := source.statementLine statement
  if source.isLineStart line.stop then ⟨line.start, source.skipBlankLines line.stop⟩ else line

end Source

end JestMigration
