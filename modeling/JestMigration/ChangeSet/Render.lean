/-
# `ChangeSet.Render` — the new text

Rendering first works out which pieces the new text is made of (`pieces`): the
spans copied from the source and the texts written between them.  A span is
copied by sweeping over the edits in source order, outer edits first; each edit
that lies inside and begins at or after the sweep's place is put in, and the
sweep goes on behind it.  A slot is copied in the same way with its own edit
taken out, so each level of nesting works on fewer edits and the recursion is
bounded by their number.
-/
import JestMigration.ChangeSet

namespace JestMigration

namespace Edit

/-- Source order, with the longer of two edits that begin together in front. -/
def precedes (a b : Edit) : Bool :=
  decide (a.span.start < b.span.start) ||
    (a.span.start == b.span.start && decide (b.span.stop ≤ a.span.stop))

end Edit

namespace ChangeSet

/-- Copies `span` from `place` on, putting `body` in for each edit the sweep comes upon. -/
def sweep (body : Edit → List Part) (span : Span) : Nat → List Edit → List Part
  | place, [] => [.source ⟨place, span.stop⟩]
  | place, edit :: rest =>
    if span.contains edit.span && decide (place ≤ edit.span.start) then
      .source ⟨place, edit.span.start⟩ :: (body edit ++ sweep body span edit.span.stop rest)
    else
      sweep body span place rest

/-- Copies `span` with the given edits carried out inside it, through `depth` levels of slots. -/
def expand : (depth : Nat) → List Edit → Span → List Part
  | 0, _, span => [.source span]
  | depth + 1, edits, span =>
    sweep
      (fun edit => edit.parts.flatMap fun
        | .text value => [.text value]
        | .source slot => expand depth (edits.filter (·.span != edit.span)) slot)
      span span.start edits

/-- The copied spans and written texts that make up the new text. -/
def pieces (changes : ChangeSet) : List Part :=
  expand changes.size (changes.edits.mergeSort Edit.precedes) changes.source.whole

end ChangeSet

namespace Part

/-- The text that a piece stands for.  A span that begins or ends inside a character has none. -/
def read? (source : Source) : Part → Option String
  | .text value => some value
  | .source span => source.slice? span

/-- The texts of pieces one after the other, if all of them have one. -/
def readAll? (source : Source) : List Part → Option String
  | [] => some ""
  | part :: rest =>
    match part.read? source, readAll? source rest with
    | some value, some others => some (value ++ others)
    | _, _ => none

/-- The text that a piece stands for, with the empty one for a piece that has none. -/
def read (source : Source) (part : Part) : String :=
  (part.read? source).getD ""

@[simp] theorem read_text (source : Source) (value : String) : read source (.text value) = value :=
  rfl

end Part

namespace ChangeSet

/-- The new text.  There is none if a span has to be copied that begins or ends inside a
character. -/
def render? (changes : ChangeSet) : Option String :=
  Part.readAll? changes.source changes.pieces

/-- The new text where there is one, as there is for edits that begin and end between characters.
Elsewhere the spans that cannot be copied are left out. -/
def render (changes : ChangeSet) : String :=
  String.join (changes.pieces.map (Part.read changes.source))

end ChangeSet

end JestMigration
