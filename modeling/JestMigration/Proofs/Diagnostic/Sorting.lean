/-
# `Proofs.Diagnostic.Sorting` — diagnostics in source order

Collecting keeps the first of equal diagnostics, sorting puts them in order of
their ranks and leaves those of one rank as they were raised.  So what is
reported is decided rank by rank: two ways to raise diagnostics that agree at
every rank give the same report (`sorted_eq_of_filter`).

Where diagnostics are raised in groups and every rank belongs to one group, the
groups may change places (`flatMap_eq_of_perm`).
-/
import JestMigration.Diagnostic
import Mathlib.Data.List.Sort

namespace JestMigration

/-- If one member at most gives something, the order of the members does not matter. -/
theorem flatMap_eq_of_perm {α β : Type} {f : α → List β} {xs ys : List α} (h : xs.Perm ys)
    (hone : ∀ a ∈ xs, ∀ b ∈ xs, f a ≠ [] → f b ≠ [] → a = b) : xs.flatMap f = ys.flatMap f := by
  induction h with
  | nil => rfl
  | cons a _ ih =>
      rw [List.flatMap_cons, List.flatMap_cons, ih fun b hb c hc =>
        hone b (List.mem_cons_of_mem _ hb) c (List.mem_cons_of_mem _ hc)]
  | swap a b rest =>
      have hswap : f b ++ f a = f a ++ f b := by
        by_cases ha : f a = []
        · rw [ha, List.append_nil, List.nil_append]
        · by_cases hb : f b = []
          · rw [hb, List.append_nil, List.nil_append]
          · rw [hone a (by simp) b (by simp) ha hb]
      simp only [List.flatMap_cons, ← List.append_assoc, hswap]
  | trans hxy _ ihx ihy =>
      rw [ihx hone, ihy fun a ha b hb => hone a (hxy.mem_iff.mpr ha) b (hxy.mem_iff.mpr hb)]

namespace Diagnostic

variable {a b c : Diagnostic} {log raised other : List Diagnostic}

/-! ## Collecting -/

theorem mem_record : a ∈ record log b ↔ a ∈ log ∨ a = b := by
  unfold record
  split
  · rename_i hmem
    exact ⟨.inl, fun h => h.elim id fun heq => heq ▸ hmem⟩
  · simp

theorem nodup_record (h : log.Nodup) (a : Diagnostic) : (record log a).Nodup := by
  unfold record
  split
  · exact h
  · rename_i hnew
    exact List.nodup_append.mpr ⟨h, List.nodup_singleton a, fun x hx y hy heq =>
      hnew (List.mem_singleton.mp hy ▸ heq ▸ hx)⟩

theorem filter_record (p : Diagnostic → Bool) (log : List Diagnostic) (a : Diagnostic) :
    (record log a).filter p = if p a then record (log.filter p) a else log.filter p := by
  by_cases hp : p a
  · have hmem : a ∈ log.filter p ↔ a ∈ log := by simp [hp]
    simp only [record, hmem, hp, if_true]
    split
    · rfl
    · simp [hp]
  · simp only [record, hp, Bool.false_eq_true, if_false]
    split
    · rfl
    · simp [hp]

/-- Every diagnostic that is raised is collected. -/
theorem mem_collect : a ∈ collect raised ↔ a ∈ raised := by
  have hfold : ∀ (raised log : List Diagnostic),
      a ∈ raised.foldl record log ↔ a ∈ log ∨ a ∈ raised := by
    intro raised
    induction raised with
    | nil => simp
    | cons first rest ih =>
        intro log
        rw [List.foldl_cons, ih, mem_record, List.mem_cons, or_assoc]
  rw [collect, hfold]
  simp

/-- No diagnostic is collected twice. -/
theorem nodup_collect (raised : List Diagnostic) : (collect raised).Nodup := by
  have hfold : ∀ (raised log : List Diagnostic), log.Nodup → (raised.foldl record log).Nodup := by
    intro raised
    induction raised with
    | nil => exact fun _ h => h
    | cons first rest ih => exact fun log h => ih _ (nodup_record h first)
  exact hfold raised [] List.nodup_nil

/-- Some of the diagnostics are collected as if they alone had been raised. -/
theorem filter_collect (p : Diagnostic → Bool) (raised : List Diagnostic) :
    (collect raised).filter p = collect (raised.filter p) := by
  have hfold : ∀ (raised log : List Diagnostic),
      (raised.foldl record log).filter p = (raised.filter p).foldl record (log.filter p) := by
    intro raised
    induction raised with
    | nil => exact fun _ => rfl
    | cons first rest ih =>
        intro log
        rw [List.foldl_cons, ih, filter_record, List.filter_cons]
        split
        · rw [List.foldl_cons]
        · rfl
  exact hfold raised []

/-! ## Sorting -/

theorem precedes_iff : a.precedes b = true ↔
    a.rank.1 < b.rank.1 ∨ a.rank.1 = b.rank.1 ∧ a.rank.2 ≤ b.rank.2 := by
  simp [precedes]

theorem precedes_trans (hab : a.precedes b = true) (hbc : b.precedes c = true) :
    a.precedes c = true := by
  rw [precedes_iff] at *
  omega

theorem precedes_total (a b : Diagnostic) : (a.precedes b || b.precedes a) = true := by
  rw [Bool.or_eq_true, precedes_iff, precedes_iff]
  omega

/-- Diagnostics that may stand on either side of each other have one rank. -/
theorem rank_eq_of_precedes (hab : a.precedes b = true) (hba : b.precedes a = true) :
    a.rank = b.rank := by
  rw [precedes_iff] at hab hba
  exact Prod.ext (by omega) (by omega)

theorem pairwise_sorted (raised : List Diagnostic) :
    (sorted raised).Pairwise fun a b => a.precedes b = true := by
  apply List.pairwise_mergeSort
  · exact fun _ _ _ => precedes_trans
  · exact precedes_total

theorem perm_sorted (raised : List Diagnostic) : (sorted raised).Perm (collect raised) :=
  List.mergeSort_perm _ _

/-- What is raised in order is reported as it was raised. -/
theorem sorted_of_pairwise
    (h : (collect raised).Pairwise fun a b => a.precedes b = true) :
    sorted raised = collect raised :=
  List.mergeSort_of_pairwise h

/-- The diagnostics of one rank stay in the order in which they were raised. -/
theorem filter_sorted (raised : List Diagnostic) (rank : Nat × Nat) :
    (sorted raised).filter (fun a => a.rank == rank) =
      collect (raised.filter fun a => a.rank == rank) := by
  rw [← filter_collect]
  have hpairwise : ((collect raised).filter fun a => a.rank == rank).Pairwise
      fun a b => a.precedes b = true := by
    refine List.pairwise_of_forall_mem_list ?_
    intro a ha b hb
    have hranka : a.rank = rank := by simpa using (List.mem_filter.mp ha).2
    have hrankb : b.rank = rank := by simpa using (List.mem_filter.mp hb).2
    rw [precedes_iff, hranka, hrankb]
    exact .inr ⟨rfl, Nat.le_refl _⟩
  have hsub : ((collect raised).filter fun a => a.rank == rank).Sublist (sorted raised) := by
    apply List.sublist_mergeSort
    · exact fun _ _ _ => precedes_trans
    · exact precedes_total
    · exact hpairwise
    · exact List.filter_sublist
  have hfilter := hsub.filter fun a => a.rank == rank
  rw [List.filter_filter] at hfilter
  simp only [Bool.and_self] at hfilter
  exact (hfilter.eq_of_length ((perm_sorted raised).filter _).length_eq.symm).symm

/-- Lists in order of rank that agree at every rank are equal. -/
theorem eq_of_filter_rank : ∀ {xs ys : List Diagnostic},
    xs.Pairwise (fun a b => a.precedes b = true) → ys.Pairwise (fun a b => a.precedes b = true) →
    (∀ rank, xs.filter (fun a => a.rank == rank) = ys.filter fun a => a.rank == rank) → xs = ys
  | [], [], _, _, _ => rfl
  | [], y :: ys, _, _, h => by
      have hy := h y.rank
      simp at hy
  | x :: xs, [], _, _, h => by
      have hx := h x.rank
      simp at hx
  | x :: xs, y :: ys, hxs, hys, h => by
      obtain ⟨hfirstx, hrestx⟩ := List.pairwise_cons.mp hxs
      obtain ⟨hfirsty, hresty⟩ := List.pairwise_cons.mp hys
      have hself : ∀ a : Diagnostic, a.precedes a = true := fun a =>
        precedes_iff.mpr (.inr ⟨rfl, Nat.le_refl _⟩)
      -- Each of the two first ones is found in the other list, behind its first one.
      have hxmem : x ∈ y :: ys := by
        have hin : x ∈ (y :: ys).filter fun a => a.rank == x.rank := by
          rw [← h x.rank]
          simp
        exact (List.mem_filter.mp hin).1
      have hymem : y ∈ x :: xs := by
        have hin : y ∈ (x :: xs).filter fun a => a.rank == y.rank := by
          rw [h y.rank]
          simp
        exact (List.mem_filter.mp hin).1
      have hyx : y.precedes x = true := by
        rcases List.mem_cons.mp hxmem with heq | hmem
        · exact heq ▸ hself x
        · exact hfirsty x hmem
      have hxy : x.precedes y = true := by
        rcases List.mem_cons.mp hymem with heq | hmem
        · exact heq ▸ hself y
        · exact hfirstx y hmem
      have hrank := rank_eq_of_precedes hxy hyx
      have heq : x = y := by
        have hhead := h x.rank
        rw [List.filter_cons_of_pos (by simp), List.filter_cons_of_pos (by simp [hrank])] at hhead
        exact (List.cons.inj hhead).1
      subst heq
      refine congrArg (x :: ·) (eq_of_filter_rank hrestx hresty ?_)
      intro rank
      have hall := h rank
      rw [List.filter_cons, List.filter_cons] at hall
      split at hall
      · exact (List.cons.inj hall).2
      · exact hall

/-- What is reported is decided rank by rank. -/
theorem sorted_eq_of_filter (h : ∀ rank, raised.filter (fun a => a.rank == rank) =
    other.filter fun a => a.rank == rank) : sorted raised = sorted other := by
  refine eq_of_filter_rank (pairwise_sorted raised) (pairwise_sorted other) ?_
  intro rank
  rw [filter_sorted, filter_sorted, h]

/-- The same diagnostics are reported in whatever order they were raised. -/
theorem sorted_perm_of_perm (h : raised.Perm other) : (sorted raised).Perm (sorted other) := by
  refine (perm_sorted raised).trans (.trans ?_ (perm_sorted other).symm)
  rw [List.perm_ext_iff_of_nodup (nodup_collect raised) (nodup_collect other)]
  intro a
  rw [mem_collect, mem_collect, h.mem_iff]

end Diagnostic

end JestMigration
