/-
# `Proofs.ChangeSet.Deletion` — deleting a statement takes blanks only

Deleting a statement records one edit, and carrying it out cuts one span out of
the text (`bytes_render_delete`).  `Deletion` says what that span is, for a
statement that does not end with a line feed: the statement or its whole line,
with the longest run of blank lines behind it where they are asked for, and
never a byte of a neighbour.
-/
import JestMigration.Proofs.ChangeSet.Copying
import JestMigration.Proofs.Source.OwnLine

namespace JestMigration

namespace Source

/-- What goes with a statement: `line` when it is deleted, `lines` when the blank lines that follow
are deleted with it. -/
structure Deletion (source : Source) (statement line lines : Span) : Prop where
  contains : line.contains statement = true
  /-- All that goes besides the statement is blank. -/
  blank : source.AllBytes isWhite line.start statement.start ∧
    source.AllBytes isWhite statement.stop line.stop
  alone_or_whole : line = statement ∨ source.WholeLine line
  /-- Whole lines go just if only indentation stands beside the statement. -/
  whole_iff : source.WholeLine line ↔ ∃ own, source.OwnLine statement own
  own : ∀ own, source.OwnLine statement own → line = own
  /-- Behind a line feed the longest run of blank lines follows, in so many rounds of the loop. -/
  run : source.WholeLine line → source.AfterFeed line.stop → lines.start = line.start ∧
    IsGreatest {last | Relation.ReflTransGen source.BlankLine line.stop last} lines.stop ∧
    (∃ rounds, source.blankRounds? rounds line.stop = some lines.stop) ∧
    source.blankLineEnd? lines.stop = none
  same : ¬ (source.WholeLine line ∧ source.AfterFeed line.stop) → lines = line
  /-- No byte of a line goes that is not blank and has nothing of the statement. -/
  neighbours : ∀ i, lines.start ≤ i → i < lines.stop →
    (∃ j, statement.start ≤ j ∧ j < statement.stop ∧ source.SameLine i j) ∨ source.OnBlankLine i

theorem deletion_statementLine {source : Source} {statement : Span}
    (hlt : statement.start < statement.stop) (hsize : statement.stop ≤ source.size)
    (hlast : source.byte? (statement.stop - 1) ≠ some lineFeed) :
    source.Deletion statement (source.statementLine statement)
      (source.statementLines statement) := by
  have hgrown : source.Grown statement (source.statementLine statement) :=
    grown_statementLine (by omega)
  have hle := hgrown.le_stop
  have hwhole := wholeLine_statementLine_iff hlt hsize hlast
  have hcases : source.statementLine statement = statement ∨
      source.WholeLine (source.statementLine statement) := by
    by_cases hown : ∃ own, source.OwnLine statement own
    · exact .inr (hwhole.mpr hown)
    · exact .inl (statementLine_eq_self (by omega) hsize (not_exists.mp hown))
  exact {
    contains := hgrown.contains
    blank := ⟨hgrown.before.mono isWhite_of_isIndent, hgrown.after⟩
    alone_or_whole := hcases
    whole_iff := hwhole
    own := fun own hown => statementLine_eq_of_ownLine (by omega) hown
    run := by
      intro _ hfeed
      rw [statementLines_of_afterFeed hfeed]
      obtain ⟨hrounds, hend⟩ := source.exists_blankRounds? (source.statementLine statement).stop
      exact ⟨rfl, source.isGreatest_skipBlankLines _, hrounds, hend⟩
    same := by
      intro hnot
      apply statementLines_eq_statementLine (by omega)
      intro hfeed
      rcases hcases with halone | hline
      · rw [halone] at hfeed
        exact not_afterFeed_stop hlast hfeed
      · exact hnot ⟨hline, hfeed⟩
    neighbours := fun i => own_or_blank_of_statementLines hlt hsize hlast }

end Source

namespace ChangeSet

/-- Carrying out one deletion leaves the bytes before and behind its span. -/
theorem bytes_render_delete {source : Source} {span : Span} (h : (source.slice? span).isSome) :
    (Source.mk (ChangeSet.render { source, edits := [.delete span] })).bytes =
      source.bytes.take span.start ++ source.bytes.drop span.stop := by
  have hsize := Source.le_size_of_isBoundary (Source.isSome_slice?_iff.mp h).2.2
  have hreadable : ∀ edit ∈ [Edit.delete span], edit.Readable source := by
    intro edit hedit
    rw [List.mem_singleton.mp hedit]
    exact ⟨h, fun slot hslot => absurd hslot List.not_mem_nil⟩
  have hpieces : ChangeSet.pieces { source, edits := [.delete span] } =
      [.source ⟨0, span.start⟩, .source ⟨span.stop, source.size⟩] := by
    simp [pieces, size, expand, sweep, Edit.delete, Source.whole, Span.contains, hsize]
  rw [bytes_render_eq_contents hreadable, hpieces, List.flatMap_cons, List.flatMap_singleton]
  have hrest : (source.bytes.drop span.stop).take (source.size - span.stop) =
      source.bytes.drop span.stop :=
    List.take_of_length_le (by rw [List.length_drop, Source.length_bytes])
  simp only [Part.contents, Source.cut, Nat.sub_zero, List.drop_zero, hrest]

/-- The call asks for the deletion of the span, and if nothing else is asked for, the span is cut
out of the text. -/
def Deletes (source : Source) (call : ChangeSet → Except Conflict ChangeSet) (span : Span) : Prop :=
  (∀ changes : ChangeSet, changes.source = source → call changes = changes.push (.delete span)) ∧
    ∃ after : ChangeSet, call { source } = .ok after ∧
      (Source.mk after.render).bytes = source.bytes.take span.start ++ source.bytes.drop span.stop

/-- Deleting one span of the text records it whatever else is recorded, and cuts it out. -/
theorem deletes_of_slice? {source : Source} {span : Span} (hlt : span.start < span.stop)
    (hslice : (source.slice? span).isSome) {call : ChangeSet → Except Conflict ChangeSet}
    (hcall : ∀ changes : ChangeSet, changes.source = source → call changes = changes.delete span) :
    Deletes source call span := by
  have hpush : ∀ changes : ChangeSet, changes.source = source →
      call changes = changes.push (.delete span) := by
    intro changes hsource
    have hnonempty : span.isEmpty = false := by
      rw [Span.isEmpty, beq_eq_false_iff_ne]
      exact Nat.ne_of_lt hlt
    rw [hcall changes hsource, delete, hnonempty]
    rfl
  exact ⟨hpush, _, hpush { source } rfl, bytes_render_delete hslice⟩

/-- Deleting a statement of some bytes that does not end with a line feed asks for one span, which
can be cut out of the text.  It is the statement, or its whole line if only indentation is beside it
there; the blank lines that follow go with it where they are asked for; and nothing is taken from a
line that has something else on it. -/
theorem statement_deleted_with_blanks (source : Source) (statement : Span)
    (hlt : statement.start < statement.stop)
    (hstart : source.isBoundary statement.start = true)
    (hstop : source.isBoundary statement.stop = true)
    (hlast : source.byte? (statement.stop - 1) ≠ some lineFeed) :
    Deletes source (·.deleteStatement statement) (source.statementLine statement) ∧
    Deletes source (·.deleteStatementLines statement) (source.statementLines statement) ∧
    source.Deletion statement (source.statementLine statement)
      (source.statementLines statement) := by
  have hsize := Source.le_size_of_isBoundary hstop
  have hslice := Source.isSome_slice?_iff.mpr ⟨Nat.le_of_lt hlt, hstart, hstop⟩
  have hline : source.Grown statement (source.statementLine statement) :=
    Source.grown_statementLine (by omega)
  have hlines : source.Grown statement (source.statementLines statement) :=
    Source.grown_statementLines (by omega)
  have hnonempty : ∀ span, source.Grown statement span → span.start < span.stop := by
    intro span hgrown
    have hfirst := hgrown.start_le
    have hend := hgrown.le_stop
    omega
  refine ⟨deletes_of_slice? (hnonempty _ hline) (hline.slice?_isSome hslice) ?_,
    deletes_of_slice? (hnonempty _ hlines) (hlines.slice?_isSome hslice) ?_,
    Source.deletion_statementLine hlt hsize hlast⟩
  · rintro changes rfl
    rfl
  · rintro changes rfl
    rfl

end ChangeSet

namespace Passing

/-- An indented statement on a line that ends with CRLF, with two blank lines behind it. -/
def source : Source := ⟨"a();\n\tt.pass();\r\n \r\n\nb();\n"⟩

/-- The span of `t.pass();`. -/
def statement : Span := ⟨6, 15⟩

end Passing

namespace ChangeSet

/-- The line goes with its indentation and its CRLF, then both blank lines, and no more. -/
theorem statement_deleted_with_blanks_passing :
    Passing.source.WholeLine ⟨5, 17⟩ ∧
    IsGreatest {last | Relation.ReflTransGen Passing.source.BlankLine 17 last} 21 ∧
    ∃ after : ChangeSet,
      ChangeSet.deleteStatementLines { source := Passing.source } Passing.statement = .ok after ∧
        after.render = "a();\nb();\n" := by
  have hdeleted := statement_deleted_with_blanks Passing.source Passing.statement (by decide)
    (by decide) (by decide) (by decide)
  have hline : Passing.source.statementLine Passing.statement = ⟨5, 17⟩ := by decide
  have hlines : Passing.source.statementLines Passing.statement = ⟨5, 21⟩ := by decide +kernel
  rw [hline, hlines] at hdeleted
  obtain ⟨_, ⟨_, after, hafter, hbytes⟩, hdeletion⟩ := hdeleted
  have hwhole : Passing.source.WholeLine ⟨5, 17⟩ :=
    ⟨.inr ⟨4, rfl, by decide⟩, .inl ⟨16, rfl, by decide⟩⟩
  refine ⟨hwhole, (hdeletion.run hwhole ⟨16, rfl, by decide⟩).2.1, after, hafter, ?_⟩
  apply Source.text_eq_of_bytes
  rw [hbytes]
  decide

end ChangeSet

end JestMigration
