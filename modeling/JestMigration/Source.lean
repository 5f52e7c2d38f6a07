/-
# `Source` — a text addressed by bytes

Syntax trees speak of byte offsets into the UTF-8 form of a text.  `Source`
gives the two ways to look at such a text: `byte?` for a single byte, `slice?`
for the characters of a span.  A span that splits a character has no slice.
-/
import JestMigration.Span

namespace JestMigration

/-- The text of one file, addressed by byte offsets of its UTF-8 form. -/
structure Source where
  text : String
  deriving DecidableEq

namespace Source

/-- The bytes of the text, in order. -/
def bytes (source : Source) : List UInt8 :=
  source.text.toByteArray.data.toList

/-- The number of bytes. -/
def size (source : Source) : Nat :=
  source.text.utf8ByteSize

/-- The byte at an offset, none past the end. -/
def byte? (source : Source) (offset : Nat) : Option UInt8 :=
  source.text.toByteArray.data[offset]?

/-- A boundary is an offset between two characters, or at either end of the text. -/
def isBoundary (source : Source) (offset : Nat) : Bool :=
  String.Pos.Raw.isValid source.text ⟨offset⟩

/-- The text of a span whose ends are boundaries in the right order. -/
def slice? (source : Source) (span : Span) : Option String :=
  if span.start ≤ span.stop && source.isBoundary span.start && source.isBoundary span.stop then
    String.fromUTF8? (source.text.toByteArray.extract span.start span.stop)
  else
    none

/-- The text of a span, empty where there is no slice. -/
def read (source : Source) (span : Span) : String :=
  (source.slice? span).getD ""

/-- The span of the whole text. -/
def whole (source : Source) : Span :=
  ⟨0, source.size⟩

theorem byte?_eq_getElem? (source : Source) (offset : Nat) :
    source.byte? offset = source.bytes[offset]? := by
  simp [byte?, bytes]

@[simp] theorem length_bytes (source : Source) : source.bytes.length = source.size := by
  simp [bytes, size, ByteArray.size_data, String.size_toByteArray]

end Source

end JestMigration
