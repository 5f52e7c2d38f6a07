/-
# `Proofs.ChangeSet.Calls` — any sequence of calls, and the answer to the next

A set of changes is filled by calls, in any order and with any spans; a call
that is refused leaves the set as it was (`perform`).  Whatever the calls, any
two recorded spans differ and are disjoint or nested (`laminar_performAll`).

That decides what `push` answers.  It goes through the recorded edits and stops
at the first that has the new span or overlaps it partially, so its answer could
depend on which of the two comes first.  In a set where no two spans overlap
there is never one of each kind (`not_overlaps_of_span_eq`), and the answer is
read off the set: `push_eq_error_iff`, `push_eq_self_iff`, `push_eq_append_iff`.
-/
import JestMigration.Proofs.ChangeSet.Recording
import Mathlib.Data.List.Pairwise

namespace JestMigration

namespace ChangeSet

/-! ## Calls -/

/-- What a set of changes can be asked to do. -/
inductive Call where
  | push (edit : Edit)
  | replace (span : Span) (text : String)
  | delete (span : Span)
  | deleteStatement (statement : Span)
  | deleteStatementLines (statement : Span)

/-- The answer to a call: a new set, or the conflict for which it is refused. -/
def answer (changes : ChangeSet) : Call → Except Conflict ChangeSet
  | .push edit => changes.push edit
  | .replace span text => changes.replace span text
  | .delete span => changes.delete span
  | .deleteStatement statement => changes.deleteStatement statement
  | .deleteStatementLines statement => changes.deleteStatementLines statement

/-- The set after a call, which is the old one if the call is refused. -/
def perform (changes : ChangeSet) (call : Call) : ChangeSet :=
  match changes.answer call with
  | .ok after => after
  | .error _ => changes

/-- The set after several calls, one after the other. -/
def performAll (changes : ChangeSet) (calls : List Call) : ChangeSet :=
  calls.foldl perform changes

/-- The edit that a call pushes, if it pushes one. -/
def Call.edit? (source : Source) : Call → Option Edit
  | .push edit => some edit
  | .replace span text =>
    if source.slice? span = some text then none else some (.replace span text)
  | .delete span => Edit.delete? span
  | .deleteStatement statement => Edit.delete? (source.statementLine statement)
  | .deleteStatementLines statement => Edit.delete? (source.statementLines statement)

/-- A call pushes an edit, or it is satisfied with the set as it is. -/
theorem answer_eq (changes : ChangeSet) (call : Call) :
    changes.answer call = match call.edit? changes.source with
      | some edit => changes.push edit
      | none => .ok changes := by
  cases call with
  | push edit => rfl
  | replace span text =>
      simp only [answer, replace, Call.edit?]
      split <;> rfl
  | delete span =>
      simp only [answer, delete, Call.edit?, Edit.delete?]
      split <;> rfl
  | deleteStatement statement =>
      simp only [answer, deleteStatement, delete, Call.edit?, Edit.delete?]
      split <;> rfl
  | deleteStatementLines statement =>
      simp only [answer, deleteStatementLines, delete, Call.edit?, Edit.delete?]
      split <;> rfl

/-! ## Recorded spans after any calls -/

theorem laminar_answer {changes after : ChangeSet} {call : Call} (h : changes.Laminar)
    (hanswer : changes.answer call = .ok after) : after.Laminar := by
  rw [answer_eq] at hanswer
  split at hanswer
  · exact laminar_push h hanswer
  · cases hanswer
    exact h

theorem laminar_perform {changes : ChangeSet} (call : Call) (h : changes.Laminar) :
    (changes.perform call).Laminar := by
  unfold perform
  split
  · rename_i after hanswer
    exact laminar_answer h hanswer
  · exact h

/-- No sequence of calls leads to two recorded spans that are equal or overlap partially. -/
theorem laminar_performAll (source : Source) (calls : List Call) :
    (performAll { source } calls).Laminar := by
  suffices hrun : ∀ (changes : ChangeSet), changes.Laminar → (changes.performAll calls).Laminar from
    hrun { source } List.Pairwise.nil
  induction calls with
  | nil =>
      intro changes h
      exact h
  | cons call rest ih =>
      intro changes h
      exact ih _ (laminar_perform call h)

/-! ## The answer to a push -/

variable {changes : ChangeSet} {edit old rival : Edit}

/-- Next to an edit with the new span there is none that overlaps it partially. -/
theorem not_overlaps_of_span_eq (h : changes.Laminar) (hold : old ∈ changes.edits)
    (hspan : old.span = edit.span) (hrival : rival ∈ changes.edits) :
    rival.span.overlaps edit.span = false := by
  rw [← hspan]
  by_cases hsame : rival = old
  · rw [hsame]
    exact Span.overlaps_self old.span
  · exact (List.Pairwise.forall h hrival hold hsame).2

/-- A rival has the new span, or overlaps it partially and is the earliest that does. -/
theorem rival?_eq_some {span : Span} (h : changes.rival? span = some rival) :
    rival ∈ changes.edits ∧ (rival.span = span ∨
      rival.span.overlaps span = true ∧ ∃ before after, changes.edits = before ++ rival :: after ∧
        ∀ old ∈ before, old.span.overlaps span = false) := by
  refine ⟨List.mem_of_find?_eq_some h, ?_⟩
  obtain ⟨hrival, before, after, hedits, hbefore⟩ := List.find?_eq_some_iff_append.mp h
  simp only [Bool.or_eq_true, beq_iff_eq] at hrival
  refine hrival.imp_right fun hoverlaps => ⟨hoverlaps, before, after, hedits, ?_⟩
  intro old hold
  have hnot := hbefore old hold
  simp only [Bool.not_or, Bool.and_eq_true, Bool.not_eq_true'] at hnot
  exact hnot.2

/-- A push is refused if and only if some recorded span overlaps the new one partially; the earliest
such span is named. -/
theorem push_eq_error_iff (h : changes.Laminar) {conflict : Conflict} :
    changes.push edit = .error conflict ↔
      ∃ before rival after, changes.edits = before ++ rival :: after ∧
        rival.span.overlaps edit.span = true ∧
        (∀ old ∈ before, old.span.overlaps edit.span = false) ∧
        conflict = ⟨rival.span, edit.span⟩ := by
  constructor
  · intro hpush
    unfold push at hpush
    split at hpush
    · exact absurd hpush (by simp)
    · rename_i rival hrival
      split at hpush
      · exact absurd hpush (by simp)
      · rename_i hne
        obtain ⟨_, hspan | ⟨hoverlaps, before, after, hedits, hbefore⟩⟩ := rival?_eq_some hrival
        · exact absurd hspan hne
        · exact ⟨before, rival, after, hedits, hoverlaps, hbefore, (Except.error.inj hpush).symm⟩
  · rintro ⟨before, rival, after, hedits, hoverlaps, hbefore, rfl⟩
    have hmem : rival ∈ changes.edits := by simp [hedits]
    -- No edit in front stops the search: one with the new span would exclude the rival.
    have hrival : changes.rival? edit.span = some rival := by
      refine List.find?_eq_some_iff_append.mpr ⟨by simp [hoverlaps], before, after, hedits, ?_⟩
      intro old hold
      have hne : old.span ≠ edit.span := by
        intro hspan
        rw [not_overlaps_of_span_eq h (by simp [hedits, hold]) hspan hmem] at hoverlaps
        exact absurd hoverlaps (by simp)
      simp [hne, hbefore old hold]
    have hne : rival.span ≠ edit.span := by
      intro hspan
      rw [hspan, Span.overlaps_self] at hoverlaps
      exact absurd hoverlaps (by simp)
    simp only [push, hrival, if_neg hne]

/-- A push records nothing and succeeds if and only if the new span is recorded already. -/
theorem push_eq_self_iff (h : changes.Laminar) :
    changes.push edit = .ok changes ↔ ∃ old ∈ changes.edits, old.span = edit.span := by
  constructor
  · intro hpush
    rcases push_cases hpush with ⟨_, hold⟩ | ⟨hafter, _⟩
    · exact hold
    · have hlength := congrArg (fun set => set.edits.length) hafter
      simp at hlength
  · rintro ⟨old, hold, hspan⟩
    obtain ⟨after, hafter⟩ := exists_push fun _ hrival => not_overlaps_of_span_eq h hold hspan hrival
    rcases push_cases hafter with ⟨rfl, _⟩ | ⟨_, hnew⟩
    · exact hafter
    · exact absurd hspan (hnew old hold).1

/-- A push records its edit last if and only if no recorded span equals or overlaps the new one. -/
theorem push_eq_append_iff :
    changes.push edit = .ok { changes with edits := changes.edits ++ [edit] } ↔
      ∀ old ∈ changes.edits, old.span ≠ edit.span ∧ old.span.overlaps edit.span = false := by
  constructor
  · intro hpush
    rcases push_cases hpush with ⟨hafter, _⟩ | ⟨_, hnew⟩
    · have hlength := congrArg (fun set => set.edits.length) hafter
      simp at hlength
    · exact hnew
  · intro hnew
    obtain ⟨after, hafter⟩ := exists_push fun old hold => (hnew old hold).2
    rcases push_cases hafter with ⟨_, old, hold, hspan⟩ | ⟨rfl, _⟩
    · exact absurd hspan (hnew old hold).1
    · exact hafter

end ChangeSet

/-- Two spans without partial overlap are disjoint or nested. -/
theorem Span.disjoint_or_nested {a b : Span} (h : a.overlaps b = false) :
    (a.stop ≤ b.start ∨ b.stop ≤ a.start) ∨ a.contains b = true ∨ b.contains a = true := by
  simp only [Span.overlaps, Bool.and_eq_false_iff, decide_eq_false_iff_not, Bool.not_eq_false'] at h
  rcases h with ((h | h) | h) | h
  · exact .inl (.inr (by omega))
  · exact .inl (.inl (by omega))
  · exact .inr (.inl h)
  · exact .inr (.inr h)

namespace ChangeSet

/-- After any calls, recorded spans differ and are disjoint or nested.  The next push is refused,
with the earliest span that stands against it, or finds its span recorded, or is recorded last:
which of them is read off the recorded spans, and a push that is refused changes nothing. -/
theorem push_after_calls (source : Source) (calls : List Call) (edit : Edit) :
    ((performAll { source } calls).edits.Pairwise fun a b => a.span ≠ b.span ∧
      ((a.span.stop ≤ b.span.start ∨ b.span.stop ≤ a.span.start) ∨
        a.span.contains b.span = true ∨ b.span.contains a.span = true)) ∧
    (∀ conflict, (performAll { source } calls).push edit = .error conflict ↔
      ∃ before rival after, (performAll { source } calls).edits = before ++ rival :: after ∧
        rival.span.overlaps edit.span = true ∧
        (∀ old ∈ before, old.span.overlaps edit.span = false) ∧
        conflict = ⟨rival.span, edit.span⟩) ∧
    ((∃ rival ∈ (performAll { source } calls).edits, rival.span.overlaps edit.span = true) →
      performAll { source } (calls ++ [.push edit]) = performAll { source } calls) ∧
    ((performAll { source } calls).push edit = .ok (performAll { source } calls) ↔
      ∃ old ∈ (performAll { source } calls).edits, old.span = edit.span) ∧
    ((∀ old ∈ (performAll { source } calls).edits,
        old.span ≠ edit.span ∧ old.span.overlaps edit.span = false) →
      (performAll { source } calls).push edit =
        .ok { performAll { source } calls with
          edits := (performAll { source } calls).edits ++ [edit] }) ∧
    ¬ ((∃ old ∈ (performAll { source } calls).edits, old.span = edit.span) ∧
      ∃ rival ∈ (performAll { source } calls).edits, rival.span.overlaps edit.span = true) := by
  have hlaminar := laminar_performAll source calls
  have hexclude : ¬ ((∃ old ∈ (performAll { source } calls).edits, old.span = edit.span) ∧
      ∃ rival ∈ (performAll { source } calls).edits, rival.span.overlaps edit.span = true) := by
    rintro ⟨⟨old, hold, hspan⟩, rival, hrival, hoverlaps⟩
    rw [not_overlaps_of_span_eq hlaminar hold hspan hrival] at hoverlaps
    exact absurd hoverlaps (by simp)
  refine ⟨hlaminar.imp fun hab => ⟨hab.1, Span.disjoint_or_nested hab.2⟩,
    fun conflict => push_eq_error_iff hlaminar, ?_, push_eq_self_iff hlaminar,
    push_eq_append_iff.mpr, hexclude⟩
  rintro ⟨rival, hrival, hoverlaps⟩
  -- The set after the last call is the set before it, since the call is refused.
  have hlast : performAll { source } (calls ++ [.push edit]) =
      (performAll { source } calls).perform (.push edit) := by
    simp only [performAll, List.foldl_append, List.foldl_cons, List.foldl_nil]
  rw [hlast]
  unfold perform
  split
  · rename_i after hafter
    rcases push_cases hafter with ⟨heq, _⟩ | ⟨_, hnew⟩
    · exact heq
    · rw [(hnew rival hrival).2] at hoverlaps
      exact absurd hoverlaps (by simp)
  · rfl

end ChangeSet

end JestMigration
