/-
# `ChangeSet` — the edits recorded against one source

Edits are kept in the order in which they were recorded.  `push` is the only
way in: it refuses an edit that overlaps a recorded one partially and ignores a
second edit of a span, so any two recorded spans differ and are disjoint or
nested.  `Change` names what a migration step may ask for; `apply` carries it
out.
-/
import JestMigration.Edit
import JestMigration.Source.Lines

namespace JestMigration

/-- Two spans that cannot both be edited: one recorded before, one refused. -/
structure Conflict where
  recorded : Span
  refused : Span
  deriving DecidableEq

/-- Edits against one source, in order of recording. -/
structure ChangeSet where
  source : Source
  edits : List Edit := []
  deriving DecidableEq

namespace ChangeSet

/-- The number of recorded edits. -/
def size (changes : ChangeSet) : Nat :=
  changes.edits.length

/-- Is nothing recorded? -/
def isEmpty (changes : ChangeSet) : Bool :=
  changes.edits.isEmpty

/-- The earliest recorded edit that has the given span or overlaps it partially. -/
def rival? (changes : ChangeSet) (span : Span) : Option Edit :=
  changes.edits.find? fun edit => edit.span == span || edit.span.overlaps span

/-- Records an edit.  A second edit of a span is ignored, a partial overlap is refused. -/
def push (changes : ChangeSet) (edit : Edit) : Except Conflict ChangeSet :=
  match changes.rival? edit.span with
  | none => .ok { changes with edits := changes.edits ++ [edit] }
  | some rival =>
    if rival.span = edit.span then .ok changes else .error ⟨rival.span, edit.span⟩

/-- Replaces a span by a text, unless the text is already there. -/
def replace (changes : ChangeSet) (span : Span) (text : String) : Except Conflict ChangeSet :=
  if changes.source.slice? span = some text then .ok changes
  else changes.push (.replace span text)

/-- Deletes a span, unless it is empty. -/
def delete (changes : ChangeSet) (span : Span) : Except Conflict ChangeSet :=
  if span.isEmpty then .ok changes else changes.push (.delete span)

/-- Deletes a statement, with its line when it is alone there. -/
def deleteStatement (changes : ChangeSet) (statement : Span) : Except Conflict ChangeSet :=
  changes.delete (changes.source.statementLine statement)

/-- Deletes a statement, with its line and the blank lines that follow. -/
def deleteStatementLines (changes : ChangeSet) (statement : Span) : Except Conflict ChangeSet :=
  changes.delete (changes.source.statementLines statement)

end ChangeSet

/-- A change that a migration step asks for. -/
inductive Change where
  /-- Put a text in place of a span, unless it is there already. -/
  | replace (span : Span) (text : String)
  /-- Put texts and slots in place of a span. -/
  | template (span : Span) (parts : List Part)
  /-- Delete a statement, with its line when it is alone there. -/
  | deleteStatement (statement : Span)
  /-- Delete a statement, with its line and the blank lines that follow. -/
  | deleteStatementLines (statement : Span)
  deriving DecidableEq

namespace ChangeSet

/-- Carries out one change. -/
def apply (changes : ChangeSet) : Change → Except Conflict ChangeSet
  | .replace span text => changes.replace span text
  | .template span parts => changes.push (.template span parts)
  | .deleteStatement statement => changes.deleteStatement statement
  | .deleteStatementLines statement => changes.deleteStatementLines statement

/-- Carries out changes in order, up to the first conflict. -/
def applyAll (changes : ChangeSet) : List Change → Except Conflict ChangeSet
  | [] => .ok changes
  | change :: rest =>
    match changes.apply change with
    | .ok changes => changes.applyAll rest
    | .error conflict => .error conflict

end ChangeSet

end JestMigration
