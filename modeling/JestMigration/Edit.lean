/-
# `Edit` — a span and what takes its place

An edit replaces one span of the source by a sequence of parts: literal text,
and slots that copy another span of the source together with the edits recorded
inside it.  So an outer edit, such as an assertion turned into `expect(…)`,
keeps the edits of its arguments.
-/
import JestMigration.Span

namespace JestMigration

/-- One piece of replacement text. -/
inductive Part where
  /-- Text written as it stands. -/
  | text (value : String)
  /-- A slot: the source text of a span. -/
  | source (span : Span)
  deriving DecidableEq

/-- Joins neighbouring texts, so that no text directly follows a text. -/
def Part.merge : List Part → List Part
  | [] => []
  | .source span :: rest => .source span :: Part.merge rest
  | .text value :: rest =>
    match Part.merge rest with
    | .text next :: more => .text (value ++ next) :: more
    | merged => .text value :: merged

/-- The replacement of one span. -/
structure Edit where
  span : Span
  parts : List Part
  deriving DecidableEq

namespace Edit

/-- Puts a text in place of a span. -/
def replace (span : Span) (text : String) : Edit :=
  ⟨span, [.text text]⟩

/-- Puts nothing in place of a span. -/
def delete (span : Span) : Edit :=
  ⟨span, []⟩

/-- Puts a sequence of texts and slots in place of a span. -/
def template (span : Span) (parts : List Part) : Edit :=
  ⟨span, Part.merge parts⟩

end Edit

end JestMigration
