/-
# `Proofs.ChangeSet.Layout` — rendering by nesting

Rendering sorts the edits once and goes over the whole list again for every
slot.  `layout` says what comes out of it without a list order and without a
place: the edits of a span that are in no other one there (`outermost`) are put
in, what is between them is copied, and a slot is laid out in the same way with
the edits that lie in it, strictly inside the edit around it (`nested`).

The sweep takes exactly the outermost edits (`mem_taken_iff`), since of edits
that are disjoint or nested the outer one comes first, and so rendering is
`layout` at any depth (`expand_eq_layout`).  What happens to a single edit is
then read off `layout`: in no slot of the edit around it, it leaves no trace
(`layout_hidden`); as an outermost one it is put in once (`layout_once`).
-/
import JestMigration.Proofs.ChangeSet.Calls
import JestMigration.Proofs.ChangeSet.Rendering

namespace JestMigration

namespace Part

/-- A text as it stands, and a slot as `copy` has it. -/
def fillSlot (copy : Span → List Part) : Part → List Part
  | .text value => [.text value]
  | .source slot => copy slot

end Part

namespace ChangeSet

/-! ## The reference -/

/-- The edit is in the span, and no edit there contains it strictly. -/
def Outermost (edits : List Edit) (span : Span) (edit : Edit) : Prop :=
  span.contains edit.span = true ∧ ∀ other ∈ edits, span.contains other.span = true →
    other.span.contains edit.span = true → other.span = edit.span

instance (edits : List Edit) (span : Span) : DecidablePred (Outermost edits span) :=
  fun edit => inferInstanceAs (Decidable (span.contains edit.span = true ∧ ∀ other ∈ edits,
    span.contains other.span = true → other.span.contains edit.span = true →
      other.span = edit.span))

/-- The outermost edits in a span, in source order. -/
def outermost (edits : List Edit) (span : Span) : List Edit :=
  (edits.filter fun edit => Outermost edits span edit).mergeSort fun a b =>
    decide (a.span.start ≤ b.span.start)

/-- The edits strictly inside an edit that lie in one of its slots. -/
def nested (edits : List Edit) (edit : Edit) (slot : Span) : List Edit :=
  edits.filter fun inner =>
    edit.span.contains inner.span && inner.span != edit.span && slot.contains inner.span

/-- Copies from `place` to `stop` with pieces put in the place of spans, from left to right. -/
def fill (stop : Nat) : Nat → List (Span × List Part) → List Part
  | place, [] => [.source ⟨place, stop⟩]
  | place, (span, pieces) :: rest =>
    .source ⟨place, span.start⟩ :: (pieces ++ fill stop span.stop rest)

theorem mem_outermost {edits : List Edit} {span : Span} {edit : Edit} :
    edit ∈ outermost edits span ↔ edit ∈ edits ∧ Outermost edits span edit := by
  rw [outermost, List.mem_mergeSort, List.mem_filter, decide_eq_true_eq]

theorem mem_nested {edits : List Edit} {edit inner : Edit} {slot : Span} :
    inner ∈ nested edits edit slot ↔ inner ∈ edits ∧ edit.span.contains inner.span = true ∧
      inner.span ≠ edit.span ∧ slot.contains inner.span = true := by
  simp only [nested, List.mem_filter, Bool.and_eq_true, bne_iff_ne, and_assoc]

/-- An edit is not inside itself, so there are fewer edits in its slots. -/
theorem length_nested_lt {edits : List Edit} {edit : Edit} (hmem : edit ∈ edits) (slot : Span) :
    (nested edits edit slot).length < edits.length :=
  List.length_filter_lt_length_iff_exists.mpr ⟨edit, hmem, by simp⟩

/-- Lays out a span with the given edits carried out inside it. -/
def layout (edits : List Edit) (span : Span) : List Part :=
  fill span.stop span.start <| (outermost edits span).attach.map fun ⟨edit, _⟩ =>
    (edit.span, edit.parts.flatMap (Part.fillSlot fun slot => layout (nested edits edit slot) slot))
termination_by edits.length
decreasing_by exact length_nested_lt (mem_outermost.mp ‹_›).1 slot

/-- What an edit puts in the place of its span. -/
def replacement (edits : List Edit) (edit : Edit) : List Part :=
  edit.parts.flatMap (Part.fillSlot fun slot => layout (nested edits edit slot) slot)

theorem layout_eq (edits : List Edit) (span : Span) :
    layout edits span = fill span.stop span.start
      ((outermost edits span).map fun edit => (edit.span, replacement edits edit)) := by
  rw [layout]
  congr 1
  exact List.attach_map_val (l := outermost edits span)
    (f := fun edit => (edit.span, replacement edits edit))

/-! ## What the sweep takes -/

/-- The edits that a sweep puts in. -/
def taken (span : Span) : Nat → List Edit → List Edit
  | _, [] => []
  | place, edit :: rest =>
    if span.contains edit.span && decide (place ≤ edit.span.start) then
      edit :: taken span edit.span.stop rest
    else
      taken span place rest

theorem sweep_eq_fill (body : Edit → List Part) (span : Span) :
    ∀ (place : Nat) (edits : List Edit), sweep body span place edits =
      fill span.stop place ((taken span place edits).map fun edit => (edit.span, body edit))
  | place, [] => rfl
  | place, edit :: rest => by
      rw [sweep, taken]
      split
      · rw [List.map_cons, fill, sweep_eq_fill body span edit.span.stop rest]
      · exact sweep_eq_fill body span place rest

theorem taken_sublist (span : Span) :
    ∀ (place : Nat) (edits : List Edit), (taken span place edits).Sublist edits
  | _, [] => List.Sublist.refl _
  | place, edit :: rest => by
      rw [taken]
      split
      · exact (taken_sublist span edit.span.stop rest).cons_cons edit
      · exact (taken_sublist span place rest).cons edit

/-- Edits of some bytes each, disjoint or nested, with their slots inside. -/
structure Nestable (edits : List Edit) : Prop where
  laminar : edits.Pairwise Compatible
  nonempty : ∀ edit ∈ edits, edit.span.start < edit.span.stop
  slots : ∀ edit ∈ edits, ∀ slot, .source slot ∈ edit.parts → edit.span.contains slot = true

theorem Nestable.sublist {inner edits : List Edit} (h : Nestable edits)
    (hsub : inner.Sublist edits) : Nestable inner where
  laminar := h.laminar.sublist hsub
  nonempty := fun edit hedit => h.nonempty edit (hsub.subset hedit)
  slots := fun edit hedit => h.slots edit (hsub.subset hedit)

theorem Nestable.nodup {edits : List Edit} (h : Nestable edits) : edits.Nodup :=
  h.laminar.imp fun hab heq => hab.1 (congrArg Edit.span heq)

/-- The same, in the order of a sweep. -/
structure Arranged (edits : List Edit) : Prop extends Nestable edits where
  sorted : edits.Pairwise fun a b => a.precedes b = true

theorem Arranged.sublist {inner edits : List Edit} (h : Arranged edits)
    (hsub : inner.Sublist edits) : Arranged inner where
  toNestable := h.toNestable.sublist hsub
  sorted := h.sorted.sublist hsub

theorem Nestable.arranged {edits : List Edit} (h : Nestable edits) :
    Arranged (edits.mergeSort Edit.precedes) where
  laminar := h.laminar.perm (List.mergeSort_perm edits Edit.precedes).symm Compatible.symm
  nonempty := fun edit hedit => h.nonempty edit (List.mem_mergeSort.mp hedit)
  slots := fun edit hedit => h.slots edit (List.mem_mergeSort.mp hedit)
  sorted := Edit.sorted_mergeSort edits

/-- An edit behind the first one begins after its end, or is inside and does not contain it. -/
theorem Arranged.head {edit other : Edit} {edits : List Edit} (h : Arranged (edit :: edits))
    (hother : other ∈ edits) : edit.span.stop ≤ other.span.start ∨
      other.span.start < edit.span.stop ∧ edit.span.contains other.span = true ∧
        other.span.contains edit.span = false := by
  obtain ⟨hsorted, _⟩ := List.pairwise_cons.mp h.sorted
  obtain ⟨hlaminar, _⟩ := List.pairwise_cons.mp h.laminar
  have hcompatible := hlaminar other hother
  have hnonempty := h.nonempty other (List.mem_cons_of_mem _ hother)
  obtain ⟨hstart, hstop⟩ := stop_le_or_contains (hsorted other hother) hcompatible hnonempty
  rcases hstop with hstop | hstop
  · exact .inl hstop
  · refine .inr ⟨by omega, Span.contains_iff.mpr ⟨hstart, hstop⟩, ?_⟩
    rw [Bool.eq_false_iff]
    intro hcontains
    exact hcompatible.1 (Span.contains_antisymm (Span.contains_iff.mpr ⟨hstart, hstop⟩) hcontains)

/-- From a place on, the sweep takes the edits that are outermost among those from there on. -/
theorem mem_taken_iff {span : Span} {edit : Edit} : ∀ {place : Nat} {edits : List Edit},
    Arranged edits → (edit ∈ taken span place edits ↔ edit ∈ edits ∧ place ≤ edit.span.start ∧
      Outermost (edits.filter fun other => place ≤ other.span.start) span edit)
  | place, [], _ => by simp [taken]
  | place, first :: rest, h => by
      have htail := h.sublist (List.sublist_cons_self first rest)
      rw [taken]
      split
      · rename_i htaken
        simp only [Bool.and_eq_true, decide_eq_true_eq] at htaken
        obtain ⟨hin, hplace⟩ := htaken
        rw [List.mem_cons, mem_taken_iff htail, List.mem_cons]
        constructor
        · rintro (rfl | ⟨hmem, hbehind, hspan, houter⟩)
          · -- The first edit is in no other, since a longer one would come before it.
            refine ⟨.inl rfl, hplace, hin, ?_⟩
            intro other hother _ hcontains
            rcases List.mem_cons.mp (List.mem_filter.mp hother).1 with rfl | hother
            · rfl
            · have hnonempty := h.nonempty edit List.mem_cons_self
              rcases h.head hother with hafter | ⟨_, _, hnot⟩
              · obtain ⟨hle, _⟩ := Span.contains_iff.mp hcontains
                omega
              · rw [hnot] at hcontains
                exact absurd hcontains (by simp)
          · have hfirst := h.nonempty first List.mem_cons_self
            refine ⟨.inr hmem, by omega, hspan, ?_⟩
            intro other hother hother_in hcontains
            have hnonempty := htail.nonempty edit hmem
            obtain ⟨hle, hge⟩ := Span.contains_iff.mp hcontains
            rcases List.mem_cons.mp (List.mem_filter.mp hother).1 with rfl | hother
            · omega
            · refine houter other (List.mem_filter.mpr ⟨hother, ?_⟩) hother_in hcontains
              rcases h.head hother with hafter | ⟨_, hinside, _⟩
              · simpa using hafter
              · have := (Span.contains_iff.mp hinside).2
                omega
        · rintro ⟨rfl | hmem, hle, hspan, houter⟩
          · exact .inl rfl
          · rcases h.head hmem with hbehind | ⟨_, hinside, hnot⟩
            · refine .inr ⟨hmem, hbehind, hspan, ?_⟩
              intro other hother
              obtain ⟨hother, hstart⟩ := List.mem_filter.mp hother
              have hfirst := h.nonempty first List.mem_cons_self
              simp only [decide_eq_true_eq] at hstart
              refine houter other (List.mem_filter.mpr ⟨List.mem_cons_of_mem _ hother, ?_⟩)
              simpa using (by omega : place ≤ other.span.start)
            · -- An edit inside the first one is passed over, and is not outermost.
              have hsame := houter first (List.mem_filter.mpr ⟨List.mem_cons_self, by simpa⟩)
                hin hinside
              rw [hsame, Span.contains_self] at hnot
              exact absurd hnot (by simp)
      · rename_i hskipped
        -- A first edit that is not taken is not among those that count.
        rw [mem_taken_iff htail]
        have hout : ¬ (span.contains first.span = true ∧ place ≤ first.span.start) := by
          simpa using hskipped
        constructor
        · rintro ⟨hmem, hle, hspan, houter⟩
          refine ⟨List.mem_cons_of_mem _ hmem, hle, hspan, ?_⟩
          intro other hother hother_in
          obtain ⟨hother, hstart⟩ := List.mem_filter.mp hother
          rcases List.mem_cons.mp hother with rfl | hother
          · exact absurd ⟨hother_in, by simpa using hstart⟩ hout
          · exact houter other (List.mem_filter.mpr ⟨hother, hstart⟩) hother_in
        · rintro ⟨hmem, hle, hspan, houter⟩
          rcases List.mem_cons.mp hmem with rfl | hmem
          · exact absurd ⟨hspan, hle⟩ hout
          · refine ⟨hmem, hle, hspan, ?_⟩
            intro other hother
            obtain ⟨hother, hstart⟩ := List.mem_filter.mp hother
            exact houter other (List.mem_filter.mpr ⟨List.mem_cons_of_mem _ hother, hstart⟩)

/-! ## Outermost edits are disjoint -/

/-- Of two outermost edits one ends before the other begins. -/
theorem Outermost.disjoint {edits : List Edit} {span : Span} {a b : Edit} (h : Nestable edits)
    (ha : Outermost edits span a) (hb : Outermost edits span b) (hmem : a ∈ edits)
    (hmem' : b ∈ edits) (hne : a ≠ b) :
    a.span.stop ≤ b.span.start ∨ b.span.stop ≤ a.span.start := by
  obtain ⟨hspan, hoverlaps⟩ := h.laminar.forall hmem hmem' hne
  rcases Span.disjoint_or_nested hoverlaps with hdisjoint | hin | hin
  · exact hdisjoint
  · exact absurd (hb.2 a hmem ha.1 hin) hspan
  · exact absurd (ha.2 b hmem' hb.1 hin).symm hspan

theorem Outermost.eq_of_start_eq {edits : List Edit} {span : Span} {a b : Edit} (h : Nestable edits)
    (ha : Outermost edits span a) (hb : Outermost edits span b) (hmem : a ∈ edits)
    (hmem' : b ∈ edits) (hstart : a.span.start = b.span.start) : a = b := by
  by_contra hne
  have := h.nonempty a hmem
  have := h.nonempty b hmem'
  rcases ha.disjoint h hb hmem hmem' hne with hle | hle <;> omega

theorem nodup_outermost {edits : List Edit} (h : Nestable edits) (span : Span) :
    (outermost edits span).Nodup :=
  (List.mergeSort_perm _ _).nodup_iff.mpr (h.nodup.filter _)

theorem sorted_outermost (edits : List Edit) (span : Span) :
    (outermost edits span).Pairwise fun a b => a.span.start ≤ b.span.start := by
  refine (List.pairwise_mergeSort ?_ ?_ _).imp fun hab => of_decide_eq_true hab
  · intro a b c hab hbc
    rw [decide_eq_true_eq] at *
    exact Nat.le_trans hab hbc
  · intro a b
    rw [Bool.or_eq_true, decide_eq_true_eq, decide_eq_true_eq]
    exact Nat.le_total _ _

/-- The outermost edits follow each other. -/
theorem pairwise_outermost {edits : List Edit} (h : Nestable edits) (span : Span) :
    (outermost edits span).Pairwise fun a b => a.span.stop ≤ b.span.start := by
  refine ((sorted_outermost edits span).and (nodup_outermost h span)).imp_of_mem ?_
  rintro a b ha hb ⟨hle, hne⟩
  obtain ⟨ha, houter⟩ := mem_outermost.mp ha
  obtain ⟨hb, houter'⟩ := mem_outermost.mp hb
  have := h.nonempty b hb
  rcases houter.disjoint h houter' ha hb hne with hbefore | hbehind
  · exact hbefore
  · omega

/-- A sweep takes the outermost edits, in their order. -/
theorem taken_eq_outermost {edits inner : List Edit} {span : Span} (h : Arranged edits)
    (hinner : Nestable inner)
    (hsame : ∀ edit, span.contains edit.span = true → (edit ∈ edits ↔ edit ∈ inner)) :
    taken span span.start edits = outermost inner span := by
  have hmem : ∀ edit, edit ∈ taken span span.start edits ↔ edit ∈ outermost inner span := by
    intro edit
    rw [mem_taken_iff h, mem_outermost]
    constructor
    · rintro ⟨hedit, _, hin, houter⟩
      refine ⟨(hsame edit hin).mp hedit, hin, ?_⟩
      intro other hother hother_in
      refine houter other (List.mem_filter.mpr ⟨(hsame other hother_in).mpr hother, ?_⟩) hother_in
      simpa using (Span.contains_iff.mp hother_in).1
    · rintro ⟨hedit, hin, houter⟩
      refine ⟨(hsame edit hin).mpr hedit, (Span.contains_iff.mp hin).1, hin, ?_⟩
      intro other hother hother_in
      exact houter other ((hsame other hother_in).mp (List.mem_filter.mp hother).1) hother_in
  have hperm : (taken span span.start edits).Perm (outermost inner span) :=
    (List.perm_ext_iff_of_nodup ((taken_sublist span span.start edits).nodup h.nodup)
      (nodup_outermost hinner span)).mpr hmem
  refine hperm.eq_of_pairwise ?_
    (h.sorted.sublist (taken_sublist span span.start edits) |>.imp ?_)
    (sorted_outermost inner span)
  · intro a b ha hb hab hba
    obtain ⟨ha, houter⟩ := mem_outermost.mp ((hmem a).mp ha)
    obtain ⟨hb, houter'⟩ := mem_outermost.mp hb
    exact houter.eq_of_start_eq hinner houter' ha hb (Nat.le_antisymm hab hba)
  · intro a b hab
    have := Edit.precedes_iff.mp hab
    omega

/-! ## Rendering is laying out -/

/-- Copying a span through enough levels is laying it out, with any edits that are the same ones
inside it. -/
theorem expand_eq_layout : ∀ {depth : Nat} {edits inner : List Edit} {span : Span},
    Arranged edits → Nestable inner →
      (∀ edit, span.contains edit.span = true → (edit ∈ edits ↔ edit ∈ inner)) →
      edits.length ≤ depth → expand depth edits span = layout inner span
  | 0, edits, inner, span, h, hinner, hsame, hdepth => by
      have htaken := taken_eq_outermost h hinner hsame
      rw [List.length_eq_zero_iff.mp (Nat.le_zero.mp hdepth), taken] at htaken
      rw [layout_eq, ← htaken]
      rfl
  | depth + 1, edits, inner, span, h, hinner, hsame, hdepth => by
      rw [expand, sweep_eq_fill, taken_eq_outermost h hinner hsame, layout_eq]
      congr 1
      apply List.map_congr_left
      intro edit hedit
      obtain ⟨hmem, hin, _⟩ := mem_outermost.mp hedit
      have hedit : edit ∈ edits := (hsame edit hin).mpr hmem
      congr 1
      apply List.flatMap_congr
      intro part hpart
      cases part with
      | text value => rfl
      | source slot =>
          have hslot := h.slots edit hedit slot hpart
          have hlt := length_filter_span_lt hedit
          refine expand_eq_layout (h.sublist List.filter_sublist)
            (hinner.sublist List.filter_sublist) ?_ (by omega)
          -- What is in the slot is in the edit, and so in the span.
          intro other hother
          have hcontains := Span.contains_trans hslot hother
          rw [List.mem_filter, mem_nested, hsame other (Span.contains_trans hin hcontains)]
          simp [hcontains, hother]

theorem layout_eq_expand {edits : List Edit} (h : Nestable edits) (span : Span) :
    layout edits span = expand edits.length (edits.mergeSort Edit.precedes) span :=
  (expand_eq_layout h.arranged h (fun _ _ => List.mem_mergeSort)
    (Nat.le_of_eq (List.length_mergeSort edits))).symm

theorem pieces_eq_layout {changes : ChangeSet} (h : Nestable changes.edits) :
    changes.pieces = layout changes.edits changes.source.whole :=
  (layout_eq_expand h _).symm

/-- Laying out a span copies nothing outside it. -/
theorem contains_of_mem_layout {edits : List Edit} {span piece : Span} (h : Nestable edits)
    (hpiece : .source piece ∈ layout edits span) : span.contains piece = true := by
  rw [layout_eq_expand h] at hpiece
  have harranged := h.arranged
  exact contains_of_mem_expand
    ⟨fun edit hedit => Nat.le_of_lt (harranged.nonempty edit hedit), harranged.slots⟩ piece hpiece

/-! ## Edits that leave no trace, and edits that are put in once -/

/-- Pieces for the given edits, each with its span. -/
def patches (edits outer : List Edit) : List (Span × List Part) :=
  outer.map fun edit => (edit.span, replacement edits edit)

/-- An edit inside an outermost one, but in none of its slots, leaves no trace. -/
theorem layout_hidden {edits : List Edit} {span : Span} {outer hidden : Edit} (h : Nestable edits)
    (houter : outer ∈ outermost edits span) (hhidden : hidden ∈ edits)
    (hin : outer.span.contains hidden.span = true) (hne : hidden ≠ outer)
    (hslots : ∀ slot, .source slot ∈ outer.parts → slot.contains hidden.span = false) :
    layout (edits.filter (· ≠ hidden)) span = layout edits span := by
  obtain ⟨hmem, houtermost⟩ := mem_outermost.mp houter
  have hspan : hidden.span ≠ outer.span := (h.laminar.forall hhidden hmem hne).1
  have hnonempty := h.nonempty hidden hhidden
  obtain ⟨hstart, hstop⟩ := Span.contains_iff.mp hin
  -- The hidden edit is not outermost, and keeps no other one from being so.
  have hsame : outermost (edits.filter (· ≠ hidden)) span = outermost edits span := by
    rw [outermost, outermost, List.filter_filter]
    congr 1
    apply List.filter_congr
    intro edit hedit
    rw [Bool.eq_iff_iff, Bool.and_eq_true, decide_eq_true_eq, decide_eq_true_eq, decide_eq_true_eq]
    constructor
    · rintro ⟨⟨hedit_in, hedit_outer⟩, _⟩
      refine ⟨hedit_in, ?_⟩
      intro other hother hother_in hcontains
      by_cases heq : other = hidden
      · -- Around the hidden edit there is the outer one, which is still there.
        have hall := Span.contains_trans hin (heq ▸ hcontains)
        have hspan' := hedit_outer outer (List.mem_filter.mpr ⟨hmem, by simpa using hne.symm⟩)
          houtermost.1 hall
        rw [heq, ← hspan'] at hcontains
        exact absurd (Span.contains_antisymm hcontains hin) hspan
      · exact hedit_outer other (List.mem_filter.mpr ⟨hother, by simpa using heq⟩) hother_in hcontains
    · intro hedit_outer
      refine ⟨⟨hedit_outer.1, ?_⟩, ?_⟩
      · intro other hother
        exact hedit_outer.2 other (List.mem_filter.mp hother).1
      · rintro rfl
        exact hspan (hedit_outer.2 outer hmem houtermost.1 hin).symm
  rw [layout_eq, layout_eq, hsame]
  congr 1
  apply List.map_congr_left
  intro edit hedit
  obtain ⟨hedit, houtermost'⟩ := mem_outermost.mp hedit
  congr 1
  apply List.flatMap_congr
  intro part hpart
  cases part with
  | text value => rfl
  | source slot =>
      have hout : ¬ (edit.span.contains hidden.span = true ∧ slot.contains hidden.span = true) := by
        rintro ⟨hcontains, hslot⟩
        by_cases heq : edit = outer
        · rw [hslots slot (heq ▸ hpart)] at hslot
          exact absurd hslot (by simp)
        · obtain ⟨hstart', hstop'⟩ := Span.contains_iff.mp hcontains
          rcases houtermost'.disjoint h houtermost hedit hmem heq with hle | hle <;> omega
      have hnested : nested (edits.filter (· ≠ hidden)) edit slot = nested edits edit slot := by
        rw [nested, nested, List.filter_filter]
        apply List.filter_congr
        intro other _
        by_cases heq : other = hidden
        · simpa [heq] using fun hcontains _ => Bool.eq_false_iff.mpr fun hslot =>
            hout ⟨hcontains, hslot⟩
        · simp [heq]
      rw [Part.fillSlot, Part.fillSlot, hnested]

theorem fill_append (stop : Nat) (span : Span) (pieces : List Part)
    (after : List (Span × List Part)) :
    ∀ (place : Nat) (before : List (Span × List Part)),
      fill stop place (before ++ (span, pieces) :: after) =
        fill span.start place before ++ pieces ++ fill stop span.stop after
  | place, [] => by simp [fill]
  | place, (other, inner) :: rest => by
      rw [List.cons_append, fill, fill, fill_append stop span pieces after other.stop rest]
      simp

/-- An outermost edit is put in once: there is what is in front of it, what takes its place, and
what is behind it. -/
theorem layout_once {edits : List Edit} {span : Span} {edit : Edit} (h : Nestable edits)
    (hmem : edit ∈ edits) (houter : Outermost edits span edit) :
    ∃ before after, outermost edits span = before ++ edit :: after ∧ edit ∉ before ++ after ∧
      layout edits span = fill edit.span.start span.start (patches edits before) ++
        replacement edits edit ++ fill span.stop edit.span.stop (patches edits after) := by
  obtain ⟨before, after, hsplit⟩ := List.append_of_mem (mem_outermost.mpr ⟨hmem, houter⟩)
  have hnodup := nodup_outermost h span
  rw [hsplit, List.perm_middle.nodup_iff, List.nodup_cons] at hnodup
  refine ⟨before, after, hsplit, hnodup.1, ?_⟩
  rw [layout_eq, hsplit, List.map_append, List.map_cons, fill_append]
  rfl

end ChangeSet

end JestMigration
