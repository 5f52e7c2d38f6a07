/-
# `Proofs.Diagnostic.SourceOrder` — one report for each place, in source order

`InSourceOrder` says what the report on some diagnostics should be, without
collecting and sorting: it has each of them once; those about the file come
first, the others by the byte at which they were raised, and where that does not
decide, by which was raised first.  There is only one such list
(`InSourceOrder.unique`), and `sorted` gives it as soon as lines grow with the
bytes (`Lined`), which they do in every source (`lined_of_source`).

Sorting looks at lines before it looks at bytes, so `Lined` is what makes the
order one of bytes (`origin_le_of_precedes`).  The rest is stability: what has
one origin has one rank, and keeps the order in which it was raised.
-/
import JestMigration.Proofs.Diagnostic.Sorting
import JestMigration.Proofs.Syntax.Nesting
import Mathlib.Data.List.Induction

namespace JestMigration

/-- Lines grow with the bytes. -/
theorem Source.lineAt_mono (source : Source) {a b : Nat} (h : a ≤ b) :
    source.lineAt a ≤ source.lineAt b := by
  have htake : ((normalizeReturns source.bytes).take a).Sublist
      ((normalizeReturns source.bytes).take b) := List.take_sublist_take_left h
  exact Nat.add_le_add_left (htake.count_le lineFeed) 1

namespace Diagnostic

/-- The byte at which a diagnostic is raised; none if it is about the whole file. -/
def origin? (diagnostic : Diagnostic) : Option Nat :=
  diagnostic.place?.map Place.start

/-- Lines are counted from one and grow with the bytes. -/
structure Lined (raised : List Diagnostic) : Prop where
  counted : ∀ diagnostic ∈ raised, ∀ place ∈ diagnostic.place?, 1 ≤ place.line
  grows : ∀ a ∈ raised, ∀ b ∈ raised, ∀ p ∈ a.place?, ∀ q ∈ b.place?,
    p.start ≤ q.start → p.line ≤ q.line

/-- `a` comes before `b` in the report: the file before all bytes, a smaller byte before a larger
one, and at one origin what was raised first. -/
def Before (raised : List Diagnostic) (a b : Diagnostic) : Prop :=
  a.origin? < b.origin? ∨ a.origin? = b.origin? ∧ raised.idxOf a < raised.idxOf b

/-- What is reported when `raised` has been raised. -/
structure InSourceOrder (raised reported : List Diagnostic) : Prop where
  once : reported.Nodup
  exact : ∀ diagnostic, diagnostic ∈ reported ↔ diagnostic ∈ raised
  ordered : reported.Pairwise (Before raised)
  lines : reported.Pairwise fun a b => ∀ p ∈ a.place?, ∀ q ∈ b.place?, p.line ≤ q.line

variable {a b : Diagnostic} {raised other reported : List Diagnostic}

/-! ## Lines in a source -/

/-- What is raised about a file and about nodes of its source is lined. -/
theorem lined_of_source (source : Source)
    (h : ∀ diagnostic ∈ raised, (∃ message, diagnostic = ofFile message) ∨
      ∃ node message, diagnostic = ofNode source node message) : Lined raised := by
  have hplace : ∀ diagnostic ∈ raised, ∀ place ∈ diagnostic.place?,
      place.line = source.lineAt place.start := by
    intro diagnostic hmem place hin
    rcases h diagnostic hmem with ⟨message, rfl⟩ | ⟨node, message, rfl⟩
    · exact absurd hin (by simp [ofFile])
    · cases hin
      rfl
  constructor
  · intro diagnostic hmem place hin
    rw [hplace diagnostic hmem place hin]
    exact Nat.le_add_right 1 _
  · intro a ha b hb p hp q hq hle
    rw [hplace a ha p hp, hplace b hb q hq]
    exact source.lineAt_mono hle

/-! ## What sorting compares -/

/-- Where lines grow with the bytes, sorting goes by origins. -/
theorem origin_le_of_precedes (hlined : Lined raised) (ha : a ∈ raised) (hb : b ∈ raised)
    (h : a.precedes b = true) : a.origin? < b.origin? ∨ a.origin? = b.origin? := by
  rw [precedes_iff] at h
  cases hplacea : a.place? with
  | none => cases hplaceb : b.place? <;> simp [origin?, hplacea, hplaceb]
  | some p =>
      have hcounted := hlined.counted a ha p hplacea
      cases hplaceb : b.place? with
      | none =>
          simp only [rank, hplacea, hplaceb] at h
          omega
      | some q =>
          have hgrows := hlined.grows b hb a ha q hplaceb p hplacea
          simp only [rank, hplacea, hplaceb] at h
          simp only [origin?, hplacea, hplaceb, Option.map_some, Option.some_lt_some,
            Option.some.injEq]
          omega

/-- What is raised at one origin has one rank. -/
theorem rank_eq_of_origin (hlined : Lined raised) (ha : a ∈ raised) (hb : b ∈ raised)
    (h : a.origin? = b.origin?) : a.rank = b.rank := by
  cases hplacea : a.place? with
  | none =>
      cases hplaceb : b.place? with
      | none => simp only [rank, hplacea, hplaceb]
      | some q => simp [origin?, hplacea, hplaceb] at h
  | some p =>
      cases hplaceb : b.place? with
      | none => simp [origin?, hplacea, hplaceb] at h
      | some q =>
          have hstart : p.start = q.start := by simpa [origin?, hplacea, hplaceb] using h
          have hle := hlined.grows a ha b hb p hplacea q hplaceb (Nat.le_of_eq hstart)
          have hge := hlined.grows b hb a ha q hplaceb p hplacea (Nat.le_of_eq hstart.symm)
          simp only [rank, hplacea, hplaceb, hstart, Nat.le_antisymm hle hge]

theorem origin_eq_of_rank (h : a.rank = b.rank) : a.origin? = b.origin? := by
  unfold rank at h
  unfold origin?
  cases hplacea : a.place? <;> cases hplaceb : b.place? <;> simp_all

theorem line_le_of_precedes (h : a.precedes b = true) :
    ∀ p ∈ a.place?, ∀ q ∈ b.place?, p.line ≤ q.line := by
  intro p hp q hq
  rw [precedes_iff] at h
  simp only [rank, Option.mem_def.mp hp, Option.mem_def.mp hq] at h
  omega

/-! ## First occurrences -/

theorem collect_concat (raised : List Diagnostic) (diagnostic : Diagnostic) :
    collect (raised ++ [diagnostic]) = record (collect raised) diagnostic := by
  simp [collect]

/-- Diagnostics that differ are all collected. -/
theorem collect_of_nodup (h : raised.Nodup) : collect raised = raised := by
  induction raised using List.reverseRecOn with
  | nil => rfl
  | append_singleton raised last ih =>
      obtain ⟨hraised, _, hlast⟩ := List.nodup_append.mp h
      rw [collect_concat, ih hraised, record, if_neg]
      exact fun hin => hlast last hin last List.mem_cons_self rfl

/-- What is collected stands in the order of first occurrence. -/
theorem pairwise_idxOf_collect (raised : List Diagnostic) :
    (collect raised).Pairwise fun a b => raised.idxOf a < raised.idxOf b := by
  induction raised using List.reverseRecOn with
  | nil => exact .nil
  | append_singleton raised last ih =>
      have hold : ∀ a ∈ collect raised, (raised ++ [last]).idxOf a = raised.idxOf a :=
        fun a ha => List.idxOf_append_of_mem (mem_collect.mp ha)
      have hpast : (collect raised).Pairwise fun a b =>
          (raised ++ [last]).idxOf a < (raised ++ [last]).idxOf b := by
        refine ih.imp_of_mem fun {a b} ha hb hlt => ?_
        rwa [hold a ha, hold b hb]
      rw [collect_concat, record]
      split
      · exact hpast
      · rename_i hnew
        refine List.pairwise_append.mpr ⟨hpast, List.pairwise_singleton _ _, ?_⟩
        intro a ha b hb
        have hlast : last ∉ raised := fun hin => hnew (mem_collect.mpr hin)
        rw [List.mem_singleton.mp hb, hold a ha, List.idxOf_append_of_notMem hlast]
        have hlt := List.idxOf_lt_length_of_mem (mem_collect.mp ha)
        omega

/-- Of two diagnostics of one rank, the report has the one first that was raised first. -/
theorem pairwise_idxOf_sorted (raised : List Diagnostic) :
    (sorted raised).Pairwise fun a b => a.rank = b.rank → raised.idxOf a < raised.idxOf b := by
  rw [List.pairwise_iff_forall_sublist]
  intro a b hsub hrank
  have hpair := hsub.filter fun c => c.rank == b.rank
  rw [filter_sorted, ← filter_collect] at hpair
  simp only [hrank, beq_self_eq_true, List.filter_cons_of_pos, List.filter_nil] at hpair
  exact List.pairwise_iff_forall_sublist.mp (pairwise_idxOf_collect raised)
    (hpair.trans List.filter_sublist)

/-! ## The report -/

theorem inSourceOrder_sorted (hlined : Lined raised) : InSourceOrder raised (sorted raised) where
  once := (perm_sorted raised).nodup_iff.mpr (nodup_collect raised)
  exact := fun _ => (perm_sorted raised).mem_iff.trans mem_collect
  ordered := by
    refine ((pairwise_sorted raised).and (pairwise_idxOf_sorted raised)).imp_of_mem ?_
    rintro a b ha hb ⟨hprecedes, hfirst⟩
    have hraised : ∀ c ∈ sorted raised, c ∈ raised :=
      fun c hc => mem_collect.mp ((perm_sorted raised).mem_iff.mp hc)
    rcases origin_le_of_precedes hlined (hraised a ha) (hraised b hb) hprecedes with hlt | heq
    · exact .inl hlt
    · exact .inr ⟨heq, hfirst (rank_eq_of_origin hlined (hraised a ha) (hraised b hb) heq)⟩
  lines := (pairwise_sorted raised).imp line_le_of_precedes

theorem Before.asymm (hab : Before raised a b) : ¬ Before raised b a := by
  have horder : ∀ x y : Option Nat, x < y → ¬ (y < x ∨ y = x) := by
    intro x y
    cases x <;> cases y <;> simp [Option.not_lt_none]
    omega
  rintro (hba | ⟨heq, hlt⟩)
  · rcases hab with hab | ⟨hsame, _⟩
    · exact horder _ _ hab (.inl hba)
    · exact horder _ _ hba (.inr hsame)
  · rcases hab with hab | ⟨_, hlt'⟩
    · exact horder _ _ hab (.inr heq)
    · omega

/-- There is only one report in source order. -/
theorem InSourceOrder.unique (h : InSourceOrder raised reported)
    (h' : InSourceOrder raised other) : reported = other := by
  have : Std.Irrefl (Before raised) := ⟨fun _ h => h.asymm h⟩
  have : Std.Antisymm (Before raised) := ⟨fun _ _ hab hba => absurd hba hab.asymm⟩
  exact h.ordered.eq_of_mem_iff h'.ordered fun diagnostic =>
    (h.exact diagnostic).trans (h'.exact diagnostic).symm

/-- Raising a diagnostic again changes nothing. -/
theorem collect_revisit {before : List Diagnostic} (hmem : a ∈ before) (after : List Diagnostic) :
    collect (before ++ a :: after) = collect (before ++ after) := by
  have hrecord : record (collect before) a = collect before := if_pos (mem_collect.mpr hmem)
  simp only [collect, List.foldl_append, List.foldl_cons] at hrecord ⊢
  rw [hrecord]

/-- What is reported is decided origin by origin. -/
theorem sorted_eq_of_origins
    (h : ∀ origin?, raised.filter (fun a => a.origin? == origin?) =
      other.filter fun a => a.origin? == origin?) : sorted raised = sorted other := by
  refine sorted_eq_of_filter fun rank => ?_
  -- The diagnostics of one rank are among those of one origin.
  have hrank : ∀ log : List Diagnostic, ∀ c : Diagnostic, c.rank = rank →
      log.filter (fun a => a.rank == rank) =
        (log.filter fun a => a.origin? == c.origin?).filter fun a => a.rank == rank := by
    intro log c hc
    rw [List.filter_filter]
    refine List.filter_congr fun a _ => ?_
    by_cases ha : a.rank = rank
    · simp [ha, origin_eq_of_rank (ha.trans hc.symm)]
    · simp [ha]
  by_cases hsome : ∃ c : Diagnostic, c.rank = rank
  · obtain ⟨c, hc⟩ := hsome
    rw [hrank raised c hc, hrank other c hc, h]
  · have hnone : ∀ log : List Diagnostic, log.filter (fun a => a.rank == rank) = [] :=
      fun log => List.filter_eq_nil_iff.mpr fun a _ ha => hsome ⟨a, beq_iff_eq.mp ha⟩
    rw [hnone, hnone]

/-- The report on what was raised is in source order, and no other list is.  Raising something again
later changes nothing, and neither does any other order in which what is raised at one origin comes
in the same order. -/
theorem sorted_in_source_order (raised : List Diagnostic) (hlined : Lined raised) :
    (∀ reported, InSourceOrder raised reported ↔ reported = sorted raised) ∧
    (∀ before diagnostic after, raised = before ++ diagnostic :: after → diagnostic ∈ before →
      sorted raised = sorted (before ++ after)) ∧
    ∀ other : List Diagnostic,
      (∀ origin?, raised.filter (fun a => a.origin? == origin?) =
        other.filter fun a => a.origin? == origin?) → sorted raised = sorted other := by
  refine ⟨?_, ?_, fun _ => sorted_eq_of_origins⟩
  · intro reported
    constructor
    · exact fun h => h.unique (inSourceOrder_sorted hlined)
    · rintro rfl
      exact inSourceOrder_sorted hlined
  · rintro before diagnostic after rfl hmem
    rw [sorted, sorted, collect_revisit hmem]

end Diagnostic

namespace Revisit

open Diagnostic

/-- One message at three places of the sample, raised from the last to the first, at one of them
twice, and one message about the file. -/
def raised : List Diagnostic :=
  [ .ofNode Sample.source (.root (Sample.name 104 108 none)) "unknown",
    .ofNode Sample.source (.root (Sample.name 51 55 none)) "unknown",
    .ofNode Sample.source (.root (Sample.name 25 29 none)) "unknown",
    .ofNode Sample.source (.root (Sample.name 51 55 none)) "unknown",
    .ofFile "incompatible" ]

theorem sorted_in_source_order_revisit :
    Lined raised ∧ sorted raised =
      [ ⟨none, "incompatible"⟩, ⟨some ⟨25, 3⟩, "unknown"⟩, ⟨some ⟨51, 4⟩, "unknown"⟩,
        ⟨some ⟨104, 8⟩, "unknown"⟩ ] := by
  have hlined : Lined raised := by
    refine lined_of_source Sample.source ?_
    simp [raised]
  refine ⟨hlined, (((sorted_in_source_order raised hlined).1 _).mp ?_).symm⟩
  have hraised : raised =
      [ ⟨some ⟨104, 8⟩, "unknown"⟩, ⟨some ⟨51, 4⟩, "unknown"⟩, ⟨some ⟨25, 3⟩, "unknown"⟩,
        ⟨some ⟨51, 4⟩, "unknown"⟩, ⟨none, "incompatible"⟩ ] := by
    decide +kernel
  rw [hraised]
  refine ⟨by decide +kernel, ?_, ?_, ?_⟩
  · intro diagnostic
    simp only [List.mem_cons, List.not_mem_nil, or_false]
    tauto
  · simp [Before, origin?]
  · simp

end Revisit

end JestMigration
