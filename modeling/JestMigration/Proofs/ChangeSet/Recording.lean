/-
# `Proofs.ChangeSet.Recording` — from changes asked for to edits recorded

A change asks for one edit, or for none when the text is there already or there
is nothing to delete (`Change.edit?`).  Carrying it out is pushing that edit.
Of a run of changes three things are said:

  * `exists_applyAll`: it succeeds when no two of the spans overlap partially;
  * `Recorded`: what is recorded afterwards was recorded before or asked for,
    nothing is lost, and every span asked for is recorded;
  * `laminar_applyAll`: recorded spans differ and are disjoint or nested.
-/
import JestMigration.ChangeSet
import Mathlib.Data.List.Basic

namespace JestMigration

theorem toOption_eq_some {ε α : Type} {result : Except ε α} {value : α} :
    result.toOption = some value ↔ result = .ok value := by
  cases result <;> simp [Except.toOption]

/-- Spans that are disjoint or nested do not overlap partially. -/
theorem Span.overlaps_eq_false {a b : Span}
    (h : a.stop ≤ b.start ∨ b.stop ≤ a.start ∨ a.contains b = true ∨ b.contains a = true) :
    a.overlaps b = false := by
  unfold Span.overlaps
  rcases h with h | h | h | h
  · simp [Nat.not_lt.mpr h]
  · simp [Nat.not_lt.mpr h]
  · simp [h]
  · simp [h]

/-- Joining neighbouring texts adds no slot. -/
theorem Part.source_mem_of_mem_merge {slot : Span} : ∀ {parts : List Part},
    .source slot ∈ Part.merge parts → .source slot ∈ parts
  | [], h => absurd h List.not_mem_nil
  | .source span :: rest, h => by
      rcases List.mem_cons.mp h with heq | h
      · exact heq ▸ List.mem_cons_self
      · exact List.mem_cons_of_mem _ (source_mem_of_mem_merge h)
  | .text value :: rest, h => by
      apply List.mem_cons_of_mem
      apply source_mem_of_mem_merge
      rw [Part.merge] at h
      split at h
      · rename_i next more hmerge
        rw [hmerge]
        exact List.mem_cons_of_mem _ (by simpa using h)
      · simpa using h

/-- The edit that deletes a span, none for an empty one. -/
def Edit.delete? (span : Span) : Option Edit :=
  if span.isEmpty then none else some (.delete span)

/-- The edit that a change asks for, if it asks for one. -/
def Change.edit? (source : Source) : Change → Option Edit
  | .replace span text =>
    if source.slice? span = some text then none else some (.replace span text)
  | .template span parts => some (.template span parts)
  | .deleteStatement statement => Edit.delete? (source.statementLine statement)
  | .deleteStatementLines statement => Edit.delete? (source.statementLines statement)

/-- The span of an edit that a change asks for. -/
def Change.span (source : Source) : Change → Span
  | .replace span _ => span
  | .template span _ => span
  | .deleteStatement statement => source.statementLine statement
  | .deleteStatementLines statement => source.statementLines statement

theorem Edit.eq_of_delete? {span : Span} {edit : Edit} (h : Edit.delete? span = some edit) :
    edit = .delete span := by
  unfold Edit.delete? at h
  split at h
  · exact absurd h (by simp)
  · exact (Option.some.inj h).symm

theorem Change.eq_of_edit?_replace {source : Source} {span : Span} {text : String} {edit : Edit}
    (h : (Change.replace span text).edit? source = some edit) : edit = .replace span text := by
  simp only [Change.edit?] at h
  split at h
  · exact absurd h (by simp)
  · exact (Option.some.inj h).symm

theorem Change.span_of_edit? {source : Source} {change : Change} {edit : Edit}
    (h : change.edit? source = some edit) : edit.span = change.span source := by
  cases change with
  | replace span text =>
      rw [Change.eq_of_edit?_replace h]
      rfl
  | template span parts =>
      rw [← Option.some.inj h]
      rfl
  | deleteStatement statement =>
      rw [Edit.eq_of_delete? h]
      rfl
  | deleteStatementLines statement =>
      rw [Edit.eq_of_delete? h]
      rfl

namespace ChangeSet

/-! ## One step -/

/-- Pushing an edit finds its span recorded, or records it last. -/
theorem push_cases {changes after : ChangeSet} {edit : Edit} (h : changes.push edit = .ok after) :
    (after = changes ∧ ∃ old ∈ changes.edits, old.span = edit.span) ∨
      (after = { changes with edits := changes.edits ++ [edit] } ∧
        ∀ old ∈ changes.edits, old.span ≠ edit.span ∧ old.span.overlaps edit.span = false) := by
  unfold push at h
  split at h
  · rename_i hrival
    refine .inr ⟨(Except.ok.inj h).symm, ?_⟩
    intro old hold
    have hnone := List.find?_eq_none.mp hrival old hold
    simpa only [Bool.or_eq_true, beq_iff_eq, not_or, Bool.not_eq_true] using hnone
  · rename_i rival hrival
    split at h
    · rename_i hspan
      exact .inl ⟨(Except.ok.inj h).symm, rival, List.mem_of_find?_eq_some hrival, hspan⟩
    · exact absurd h (by simp)

/-- Without partial overlap an edit is accepted. -/
theorem exists_push {changes : ChangeSet} {edit : Edit}
    (h : ∀ old ∈ changes.edits, old.span.overlaps edit.span = false) :
    ∃ after, changes.push edit = .ok after := by
  unfold push
  split
  · exact ⟨_, rfl⟩
  · rename_i rival hrival
    have hmem := List.mem_of_find?_eq_some hrival
    have hsome := List.find?_some hrival
    simp only [h rival hmem, Bool.or_false, beq_iff_eq] at hsome
    exact ⟨_, if_pos hsome⟩

/-- Carrying out a change is pushing the edit it asks for. -/
theorem apply_eq (changes : ChangeSet) (change : Change) :
    changes.apply change = match change.edit? changes.source with
      | some edit => changes.push edit
      | none => .ok changes := by
  cases change with
  | replace span text =>
      simp only [apply, replace, Change.edit?]
      split <;> rfl
  | template span parts => rfl
  | deleteStatement statement =>
      simp only [apply, deleteStatement, delete, Change.edit?, Edit.delete?]
      split <;> rfl
  | deleteStatementLines statement =>
      simp only [apply, deleteStatementLines, delete, Change.edit?, Edit.delete?]
      split <;> rfl

/-! ## What a run records -/

/-- `after` is `before` with edits recorded that the changes ask for. -/
structure Recorded (before : ChangeSet) (asked : List Change) (after : ChangeSet) : Prop where
  source : after.source = before.source
  kept : ∀ edit ∈ before.edits, edit ∈ after.edits
  origin : ∀ edit ∈ after.edits, edit ∈ before.edits ∨
    ∃ change ∈ asked, change.edit? before.source = some edit
  covered : ∀ change ∈ asked, ∀ edit, change.edit? before.source = some edit →
    ∃ recorded ∈ after.edits, recorded.span = edit.span

theorem Recorded.refl (changes : ChangeSet) : Recorded changes [] changes where
  source := rfl
  kept := fun _ h => h
  origin := fun _ h => .inl h
  covered := fun _ h => absurd h List.not_mem_nil

theorem recorded_apply {before after : ChangeSet} {change : Change}
    (h : before.apply change = .ok after) : Recorded before [change] after := by
  rw [apply_eq] at h
  cases hedit : change.edit? before.source with
  | none =>
      rw [hedit] at h
      cases h
      refine ⟨rfl, fun _ h => h, fun _ h => .inl h, ?_⟩
      intro other hother edit hask
      rw [List.mem_singleton.mp hother, hedit] at hask
      exact absurd hask (by simp)
  | some edit =>
      rw [hedit] at h
      rcases push_cases h with ⟨rfl, old, hold, hspan⟩ | ⟨rfl, _⟩
      · refine ⟨rfl, fun _ h => h, fun _ h => .inl h, ?_⟩
        intro other hother asked hask
        rw [List.mem_singleton.mp hother, hedit] at hask
        exact ⟨old, hold, hspan.trans (congrArg Edit.span (Option.some.inj hask))⟩
      · refine ⟨rfl, fun _ h => List.mem_append_left _ h, ?_, ?_⟩
        · intro other hother
          rcases List.mem_append.mp hother with hold | hnew
          · exact .inl hold
          · exact .inr ⟨change, List.mem_singleton_self _, by rw [hedit, List.mem_singleton.mp hnew]⟩
        · intro other hother asked hask
          rw [List.mem_singleton.mp hother, hedit] at hask
          exact ⟨edit, by simp, congrArg Edit.span (Option.some.inj hask)⟩

theorem Recorded.append {first middle last : ChangeSet} {xs ys : List Change}
    (h : Recorded first xs middle) (h' : Recorded middle ys last) :
    Recorded first (xs ++ ys) last where
  source := h'.source.trans h.source
  kept := fun edit hedit => h'.kept edit (h.kept edit hedit)
  origin := by
    intro edit hedit
    rcases h'.origin edit hedit with hmiddle | ⟨change, hchange, hask⟩
    · rcases h.origin edit hmiddle with hfirst | ⟨change, hchange, hask⟩
      · exact .inl hfirst
      · exact .inr ⟨change, List.mem_append_left _ hchange, hask⟩
    · exact .inr ⟨change, List.mem_append_right _ hchange, h.source ▸ hask⟩
  covered := by
    intro change hchange edit hask
    rcases List.mem_append.mp hchange with hchange | hchange
    · obtain ⟨recorded, hrecorded, hspan⟩ := h.covered change hchange edit hask
      exact ⟨recorded, h'.kept recorded hrecorded, hspan⟩
    · exact h'.covered change hchange edit (h.source.symm ▸ hask)

/-- What a successful run records. -/
theorem recorded_applyAll {before after : ChangeSet} :
    ∀ {asked : List Change}, before.applyAll asked = .ok after → Recorded before asked after
  | [], h => by
      cases h
      exact .refl before
  | change :: rest, h => by
      simp only [applyAll] at h
      split at h
      · rename_i middle hmiddle
        exact (recorded_apply hmiddle).append (recorded_applyAll h)
      · exact absurd h (by simp)

/-- What is recorded in a fresh change set was asked for. -/
theorem origin_applyAll {source : Source} {after : ChangeSet} {asked : List Change} {edit : Edit}
    (h : applyAll { source } asked = .ok after) (hedit : edit ∈ after.edits) :
    ∃ change ∈ asked, change.edit? source = some edit := by
  rcases (recorded_applyAll h).origin edit hedit with hold | hnew
  · exact absurd hold List.not_mem_nil
  · exact hnew

/-- A text is recorded for a span that nothing is asked for before just if that is what a run ends
with. -/
theorem replace_mem_applyAll_iff {source : Source} {after : ChangeSet} {span : Span} {text : String}
    {asked other : List Change} {ends : Bool}
    (h : applyAll { source } (asked ++ if ends then [.replace span text] else other) = .ok after)
    (hasked : ∀ change ∈ asked, ∀ edit, change.edit? source = some edit → edit.span ≠ span)
    (hother : ∀ change ∈ other, change.edit? source ≠ some (.replace span text))
    (htext : ends = true → source.slice? span ≠ some text) :
    Edit.replace span text ∈ after.edits ↔ ends = true := by
  constructor
  · intro hmem
    obtain ⟨change, hchange, hedit⟩ := origin_applyAll h hmem
    rcases List.mem_append.mp hchange with hchange | hchange
    · exact absurd rfl (hasked change hchange _ hedit)
    · cases ends with
      | true => rfl
      | false => exact absurd hedit (hother change hchange)
  · intro hends
    rw [hends, if_pos rfl] at h
    have hedit : (Change.replace span text).edit? source = some (.replace span text) := by
      simp only [Change.edit?, if_neg (htext hends)]
    obtain ⟨recorded, hrecorded, hspan⟩ := (recorded_applyAll h).covered _
      (List.mem_append_right _ List.mem_cons_self) _ hedit
    -- Whatever is recorded for the span was asked for last.
    obtain ⟨change, hchange, hask⟩ := origin_applyAll h hrecorded
    rcases List.mem_append.mp hchange with hchange | hchange
    · exact absurd hspan (hasked change hchange _ hask)
    · rw [List.mem_singleton.mp hchange, hedit] at hask
      rw [Option.some.inj hask]
      exact hrecorded

/-- A run succeeds if no span asked for overlaps another one, or a recorded one, partially. -/
theorem exists_applyAll {source : Source} (spans : Span → Prop)
    (hspans : ∀ a b, spans a → spans b → a.overlaps b = false) :
    ∀ {asked : List Change} {before : ChangeSet}, before.source = source →
      (∀ edit ∈ before.edits, spans edit.span) → (∀ change ∈ asked, spans (change.span source)) →
      ∃ after, before.applyAll asked = .ok after
  | [], before, _, _, _ => ⟨before, rfl⟩
  | change :: rest, before, hsource, hbefore, hasked => by
      have hstep : ∃ middle, before.apply change = .ok middle := by
        rw [apply_eq, hsource]
        cases hedit : change.edit? source with
        | none => exact ⟨before, rfl⟩
        | some edit =>
            apply exists_push
            intro old hold
            rw [Change.span_of_edit? hedit]
            exact hspans _ _ (hbefore old hold) (hasked change List.mem_cons_self)
      obtain ⟨middle, hmiddle⟩ := hstep
      have hrec := recorded_apply hmiddle
      have hmid : ∀ edit ∈ middle.edits, spans edit.span := by
        intro edit hedit
        rcases hrec.origin edit hedit with hold | ⟨other, hother, hask⟩
        · exact hbefore edit hold
        · rw [Change.span_of_edit? hask, hsource, List.mem_singleton.mp hother]
          exact hasked change List.mem_cons_self
      obtain ⟨after, hafter⟩ := exists_applyAll spans hspans (hrec.source.trans hsource) hmid
        fun other hother => hasked other (List.mem_cons_of_mem _ hother)
      exact ⟨after, by simp only [applyAll, hmiddle, hafter]⟩

theorem toOption_applyAll_eq_some {before after : ChangeSet} {asked : List Change} :
    (before.applyAll asked).toOption = some after ↔ before.applyAll asked = .ok after :=
  toOption_eq_some

/-! ## Recorded spans are disjoint or nested -/

/-- The spans of two edits differ and do not overlap partially. -/
def Compatible (a b : Edit) : Prop :=
  a.span ≠ b.span ∧ a.span.overlaps b.span = false

theorem Compatible.symm {a b : Edit} (h : Compatible a b) : Compatible b a :=
  ⟨h.1.symm, Span.overlaps_comm a.span b.span ▸ h.2⟩

instance : Std.Symm Compatible := ⟨fun _ _ => Compatible.symm⟩

/-- Any two edits are compatible. -/
def Laminar (changes : ChangeSet) : Prop :=
  changes.edits.Pairwise Compatible

theorem laminar_push {changes after : ChangeSet} {edit : Edit} (h : changes.Laminar)
    (hpush : changes.push edit = .ok after) : after.Laminar := by
  rcases push_cases hpush with ⟨rfl, _⟩ | ⟨rfl, hnew⟩
  · exact h
  · refine List.pairwise_append.mpr ⟨h, List.pairwise_singleton _ _, ?_⟩
    intro old hold other hother
    rw [List.mem_singleton.mp hother]
    exact hnew old hold

theorem laminar_apply {changes after : ChangeSet} {change : Change} (h : changes.Laminar)
    (happly : changes.apply change = .ok after) : after.Laminar := by
  rw [apply_eq] at happly
  split at happly
  · exact laminar_push h happly
  · cases happly
    exact h

theorem laminar_applyAll {before after : ChangeSet} :
    ∀ {asked : List Change}, before.Laminar → before.applyAll asked = .ok after → after.Laminar
  | [], h, happly => by
      cases happly
      exact h
  | _ :: _, h, happly => by
      simp only [applyAll] at happly
      split at happly
      · rename_i middle hmiddle
        exact laminar_applyAll (laminar_apply h hmiddle) happly
      · exact absurd happly (by simp)

end ChangeSet

end JestMigration
