/-
# `Proofs.ChangeSet.Order` — what the order of changes decides

Of the edits asked for at one span the first is recorded
(`mem_edits_iff`); that is all that the order of changes decides.  The order in
which edits were recorded is forgotten when they are rendered (`pieces_of_perm`).
So two runs that have the same first edit at every span give the same text
(`render_eq_of_first?`).

Where changes are asked for in groups, the groups may change places as long as
no two of them start with different edits at one span (`findSome?_eq_of_perm`).
-/
import JestMigration.Proofs.ChangeSet.Rendering
import Mathlib.Data.List.Sort

namespace JestMigration

/-- A search that comes to the same result wherever it succeeds does not depend on the order. -/
theorem findSome?_eq_of_perm {α β : Type} {f : α → Option β} {xs ys : List α} (h : xs.Perm ys)
    (hagree : ∀ a ∈ xs, ∀ b ∈ xs, ∀ x y, f a = some x → f b = some y → x = y) :
    xs.findSome? f = ys.findSome? f := by
  have hsame : ∀ {found other : Option β}, found = xs.findSome? f → other = ys.findSome? f →
      found = other := by
    rintro found other rfl rfl
    cases hxs : xs.findSome? f with
    | none =>
        rw [List.findSome?_eq_none_iff] at hxs
        exact (List.findSome?_eq_none_iff.mpr fun a ha => hxs a (h.mem_iff.mpr ha)).symm
    | some x =>
        obtain ⟨a, ha, hx⟩ := List.exists_of_findSome?_eq_some hxs
        have hsome : (ys.findSome? f).isSome :=
          List.findSome?_isSome_iff.mpr ⟨a, h.mem_iff.mp ha, by rw [hx]; rfl⟩
        obtain ⟨y, hys⟩ := Option.isSome_iff_exists.mp hsome
        obtain ⟨b, hb, hy⟩ := List.exists_of_findSome?_eq_some hys
        rw [hys, hagree a ha b (h.mem_iff.mpr hb) x y hx hy]
  exact hsame rfl rfl

namespace ChangeSet

/-! ## The first edit of a span -/

/-- The edits that changes ask for, in order. -/
def requested (source : Source) (asked : List Change) : List Edit :=
  asked.filterMap (Change.edit? source)

/-- The edit found first for a span. -/
def first? (edits : List Edit) (span : Span) : Option Edit :=
  edits.find? fun edit => edit.span == span

theorem span_of_first? {edits : List Edit} {span : Span} {edit : Edit}
    (h : first? edits span = some edit) : edit.span = span := by
  simpa using List.find?_some h

/-- Among edits with different spans each is the first of its span. -/
theorem first?_of_mem {edits : List Edit} (h : edits.Pairwise Compatible) {edit : Edit}
    (hmem : edit ∈ edits) : first? edits edit.span = some edit := by
  cases hfound : first? edits edit.span with
  | none =>
      have hnone := List.find?_eq_none.mp hfound edit hmem
      exact absurd hnone (by simp)
  | some other =>
      have hspan := span_of_first? hfound
      by_contra hne
      have hother : other ≠ edit := fun heq => hne (congrArg some heq)
      exact (h.forall (List.mem_of_find?_eq_some hfound) hmem hother).1 hspan

/-- A run records the first edit of every span, and no other. -/
theorem mem_edits_iff {source : Source} {edit : Edit} :
    ∀ {asked : List Change} {before after : ChangeSet}, before.source = source →
      before.Laminar → before.applyAll asked = .ok after →
      (edit ∈ after.edits ↔
        first? (before.edits ++ requested source asked) edit.span = some edit)
  | [], before, after, _, hlaminar, h => by
      cases h
      rw [requested, List.filterMap_nil, List.append_nil]
      exact ⟨first?_of_mem hlaminar, List.mem_of_find?_eq_some⟩
  | change :: rest, before, after, hsource, hlaminar, h => by
      simp only [applyAll] at h
      split at h
      · rename_i middle hmiddle
        rw [mem_edits_iff ((recorded_apply hmiddle).source.trans hsource)
          (laminar_apply hlaminar hmiddle) h]
        rw [apply_eq, hsource] at hmiddle
        cases hedit : change.edit? source with
        | none =>
            rw [hedit] at hmiddle
            cases hmiddle
            rw [requested, requested, List.filterMap_cons, hedit]
        | some new =>
            rw [hedit] at hmiddle
            rw [requested, requested, List.filterMap_cons, hedit]
            rcases push_cases hmiddle with ⟨rfl, old, hold, hspan⟩ | ⟨rfl, _⟩
            · -- The span is recorded, so the new edit is never found.
              have hskip : ∀ span : Span, first? (middle.edits ++ new :: requested source rest) span =
                  first? (middle.edits ++ requested source rest) span := by
                intro span
                rw [first?, first?, List.find?_append, List.find?_append]
                by_cases hsame : new.span = span
                · have hsome : (middle.edits.find? fun edit => edit.span == span).isSome :=
                    List.find?_isSome.mpr ⟨old, hold, by simp [hspan, hsame]⟩
                  obtain ⟨found, hfound⟩ := Option.isSome_iff_exists.mp hsome
                  rw [hfound, Option.some_or, Option.some_or]
                · rw [List.find?_cons_of_neg (by simpa using hsame)]
              rw [requested] at hskip
              rw [hskip]
            · rw [List.append_assoc]
              rfl
      · exact absurd h (by simp)

/-! ## Rendering forgets the order -/

/-- The pieces depend on which edits are recorded, not on their order. -/
theorem pieces_of_perm {a b : ChangeSet} (hsource : a.source = b.source) (ha : a.Laminar)
    (hperm : a.edits.Perm b.edits) : a.pieces = b.pieces := by
  have hsorted : a.edits.mergeSort Edit.precedes = b.edits.mergeSort Edit.precedes := by
    have hpa := List.mergeSort_perm a.edits Edit.precedes
    have hpb := List.mergeSort_perm b.edits Edit.precedes
    refine List.Perm.eq_of_pairwise ?_ (Edit.sorted_mergeSort a.edits)
      (Edit.sorted_mergeSort b.edits) (hpa.trans (hperm.trans hpb.symm))
    -- Edits that may stand on either side of each other have one span.
    intro x y hx hy hxy hyx
    rw [Edit.precedes_iff] at hxy hyx
    by_contra hne
    refine (ha.forall (hpa.mem_iff.mp hx) (hperm.mem_iff.mpr (hpb.mem_iff.mp hy)) hne).1 ?_
    exact Span.contains_antisymm (Span.contains_iff.mpr ⟨by omega, by omega⟩)
      (Span.contains_iff.mpr ⟨by omega, by omega⟩)
  rw [pieces, pieces, size, size, hsorted, hsource, hperm.length_eq]

theorem Laminar.nodup {changes : ChangeSet} (h : changes.Laminar) : changes.edits.Nodup :=
  List.Pairwise.imp (fun hcompatible heq => hcompatible.1 (congrArg Edit.span heq)) h

theorem laminar_empty (source : Source) : Laminar { source } :=
  List.Pairwise.nil

/-- Runs with the same first edit at every span give the same text. -/
theorem render_eq_of_first? {source : Source} {asked other : List Change} {a b : ChangeSet}
    (ha : applyAll { source } asked = .ok a) (hb : applyAll { source } other = .ok b)
    (h : ∀ span, first? (requested source asked) span = first? (requested source other) span) :
    a.render = b.render := by
  have hla := laminar_applyAll (laminar_empty source) ha
  have hlb := laminar_applyAll (laminar_empty source) hb
  have hsource := (recorded_applyAll ha).source.trans (recorded_applyAll hb).source.symm
  rw [render, render, hsource, pieces_of_perm hsource hla]
  rw [List.perm_ext_iff_of_nodup hla.nodup hlb.nodup]
  intro edit
  rw [mem_edits_iff rfl (laminar_empty source) ha, mem_edits_iff rfl (laminar_empty source) hb,
    List.nil_append, List.nil_append, h]

end ChangeSet

end JestMigration
