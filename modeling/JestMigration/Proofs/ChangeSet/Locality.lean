/-
# `Proofs.ChangeSet.Locality` — rendering part by part

What comes out for a span depends on the edits inside it only (`copy`).  So what
an edit puts in the place of its span (`putIn`) can be written down without the
edits around it: the texts of the edit as they stand, and its slots copied as if
each stood alone (`putIn_eq`).  Whether neighbouring texts have been joined makes
no difference (`join_merge`).

An edit that is in no other one there divides the span in three: what is in
front of it, what it puts in, and what is behind it (`copy_split`).
-/
import JestMigration.Proofs.ChangeSet.Traversal

namespace JestMigration

/-- Joining neighbouring texts makes no difference to what is read in the end. -/
theorem Part.join_merge {read : Part → String}
    (htext : ∀ a b, read (.text (a ++ b)) = read (.text a) ++ read (.text b)) :
    ∀ parts : List Part, String.join ((merge parts).map read) = String.join (parts.map read)
  | [] => rfl
  | .source span :: rest => by
      rw [merge, List.map_cons, List.map_cons, String.join_cons, String.join_cons,
        join_merge htext rest]
  | .text value :: rest => by
      rw [List.map_cons, String.join_cons, ← join_merge htext rest, merge]
      split
      · rename_i next more hmerge
        rw [hmerge, List.map_cons, List.map_cons, String.join_cons, String.join_cons, htext,
          String.append_assoc]
      · rw [List.map_cons, String.join_cons]

namespace ChangeSet

/-- The text of a span with the edits inside it carried out. -/
def copy (changes : ChangeSet) (span : Span) : String :=
  String.join ((expand changes.size (changes.edits.mergeSort Edit.precedes) span).map
    (Part.read changes.source))

/-- The text that an edit puts in the place of its span. -/
def putIn (changes : ChangeSet) (edit : Edit) : String :=
  String.join ((edit.parts.flatMap (Part.fillSlot fun slot => expand changes.size
    ((changes.edits.mergeSort Edit.precedes).filter (·.span != edit.span)) slot)).map
      (Part.read changes.source))

/-- A text as it stands, and a slot with the edits inside it carried out. -/
def write (changes : ChangeSet) : Part → String
  | .text value => value
  | .source slot => changes.copy slot

@[simp] theorem write_text (changes : ChangeSet) (value : String) :
    changes.write (.text value) = value := rfl

@[simp] theorem write_source (changes : ChangeSet) (slot : Span) :
    changes.write (.source slot) = changes.copy slot := rfl

@[simp] theorem putIn_replace (changes : ChangeSet) (span : Span) (text : String) :
    changes.putIn (.replace span text) = text := by
  simp [putIn, Edit.replace, Part.fillSlot]

@[simp] theorem putIn_delete (changes : ChangeSet) (span : Span) :
    changes.putIn (.delete span) = "" := rfl

theorem render_eq_copy (changes : ChangeSet) :
    changes.render = changes.copy changes.source.whole :=
  rfl

/-! ## Only the edits inside count -/

/-- Two selections of edits that are the same inside a span come to the same there. -/
theorem expand_filter_congr {edits : List Edit}
    (hslots : ∀ edit ∈ edits, ∀ slot, .source slot ∈ edit.parts → edit.span.contains slot = true)
    {depth : Nat} : ∀ {p q : Edit → Bool} {span : Span},
      (∀ edit ∈ edits, span.contains edit.span = true → p edit = q edit) →
      expand depth (edits.filter p) span = expand depth (edits.filter q) span := by
  induction depth with
  | zero =>
      intro p q span _
      rfl
  | succ depth ih =>
      intro p q span hsame
      rw [expand, expand, sweep_filter_congr hsame]
      apply sweep_congr
      intro edit hedit hin
      apply List.flatMap_congr
      intro part hpart
      cases part with
      | text value => rfl
      | source slot =>
          -- What is in the slot is in the edit, and so in the span.
          have hslot := hslots edit (List.mem_filter.mp hedit).1 slot hpart
          simp only [List.filter_filter]
          refine ih fun other hother hcontains => ?_
          rw [hsame other hother (Span.contains_trans hin (Span.contains_trans hslot hcontains))]

section

variable {changes : ChangeSet} {edit : Edit}

/-- A slot that does not hold all of its edit is copied as if it stood alone. -/
theorem expand_without
    (hslots : ∀ edit ∈ changes.edits, ∀ slot, .source slot ∈ edit.parts →
      edit.span.contains slot = true)
    {slot : Span} (hout : slot.contains edit.span = false) :
    expand changes.size ((changes.edits.mergeSort Edit.precedes).filter (·.span != edit.span))
        slot =
      expand changes.size (changes.edits.mergeSort Edit.precedes) slot := by
  have hsorted : ∀ edit ∈ changes.edits.mergeSort Edit.precedes, ∀ slot,
      .source slot ∈ edit.parts → edit.span.contains slot = true :=
    fun edit hedit => hslots edit (List.mem_mergeSort.mp hedit)
  refine (expand_filter_congr (q := fun _ => true) hsorted ?_).trans (by rw [List.filter_true])
  intro other _ hin
  rw [bne_iff_ne]
  intro hspan
  rw [hspan, hout] at hin
  exact absurd hin (by simp)

theorem join_flatMap {α : Type} (items : List α) (pieces : α → List Part) (read : Part → String) :
    String.join ((items.flatMap pieces).map read) =
      String.join (items.map fun item => String.join ((pieces item).map read)) := by
  induction items with
  | nil => rfl
  | cons item rest ih =>
      rw [List.flatMap_cons, List.map_append, String.join_append, ih, List.map_cons,
        String.join_cons]

/-- What an edit puts in the place of its span: its texts, and its slots with the edits inside them
carried out. -/
theorem putIn_eq
    (hslots : ∀ edit ∈ changes.edits, ∀ slot, .source slot ∈ edit.parts →
      edit.span.contains slot = true)
    (hout : ∀ slot, .source slot ∈ edit.parts → slot.contains edit.span = false) :
    changes.putIn edit = String.join (edit.parts.map changes.write) := by
  rw [putIn, join_flatMap]
  congr 1
  apply List.map_congr_left
  intro part hpart
  cases part with
  | text value => rw [Part.fillSlot, List.map_singleton, String.join_cons, String.join_nil,
      String.append_empty, Part.read_text, write]
  | source slot =>
      rw [Part.fillSlot, expand_without hslots (hout slot hpart)]
      rfl

/-- For a template the parts count as they were given. -/
theorem putIn_template {span : Span} {parts : List Part}
    (hslots : ∀ edit ∈ changes.edits, ∀ slot, .source slot ∈ edit.parts →
      edit.span.contains slot = true)
    (hout : ∀ slot, .source slot ∈ parts → slot.contains span = false) :
    changes.putIn (.template span parts) = String.join (parts.map changes.write) := by
  rw [putIn_eq hslots fun slot hslot => hout slot (Part.source_mem_of_mem_merge hslot)]
  exact Part.join_merge (fun _ _ => rfl) parts

/-! ## What is in front of an edit, and what is behind it -/

theorem copy_eq_layout (h : Nestable changes.edits) (span : Span) :
    changes.copy span =
      String.join ((layout changes.edits span).map (Part.read changes.source)) := by
  rw [copy, size, ← layout_eq_expand h]

theorem putIn_eq_replacement (h : Nestable changes.edits) (hmem : edit ∈ changes.edits) :
    changes.putIn edit =
      String.join ((replacement changes.edits edit).map (Part.read changes.source)) := by
  rw [putIn, replacement]
  congr 2
  apply List.flatMap_congr
  intro part hpart
  cases part with
  | text value => rfl
  | source slot =>
      have hslot := h.slots edit hmem slot hpart
      refine expand_eq_layout (h.arranged.sublist List.filter_sublist)
        (h.sublist List.filter_sublist) ?_ ?_
      · intro other hother
        have hcontains := Span.contains_trans hslot hother
        rw [List.mem_filter, List.mem_mergeSort, mem_nested]
        simp [hcontains, hother]
      · exact (List.length_filter_le _ _).trans (Nat.le_of_eq (List.length_mergeSort _))

end

section

variable {edits before after : List Edit} {span : Span} {edit : Edit}

/-- Edits that follow each other and are the outermost ones are those in their order. -/
theorem outermost_eq_of_mem_iff {found : List Edit} (h : Nestable edits)
    (hfollow : found.Pairwise fun a b => a.span.stop ≤ b.span.start)
    (hmem : ∀ other, other ∈ found ↔ other ∈ edits ∧ Outermost edits span other) :
    outermost edits span = found := by
  have hnonempty : ∀ other ∈ found, other.span.start < other.span.stop :=
    fun other hother => h.nonempty other ((hmem other).mp hother).1
  have hnodup : found.Nodup := by
    refine hfollow.imp_of_mem ?_
    rintro a b ha _ hab rfl
    exact absurd hab (Nat.not_le.mpr (hnonempty a ha))
  have hperm : (outermost edits span).Perm found :=
    (List.perm_ext_iff_of_nodup (nodup_outermost h span) hnodup).mpr
      fun other => mem_outermost.trans (hmem other).symm
  refine hperm.eq_of_pairwise ?_ (pairwise_outermost h span) hfollow
  intro a b ha hb hab hba
  have := h.nonempty a (mem_outermost.mp ha).1
  have := hnonempty b hb
  omega

/-- In a part of the span, in front of an outermost edit or behind it, the outermost edits are those
of the span. -/
theorem outermost_part_iff (h : Nestable edits) (hmem : edit ∈ edits)
    (houter : Outermost edits span edit) {part : Span}
    (hside : part = ⟨span.start, edit.span.start⟩ ∨ part = ⟨edit.span.stop, span.stop⟩)
    {other : Edit} (hother : other ∈ edits) :
    Outermost edits part other ↔ Outermost edits span other ∧ part.contains other.span = true := by
  have hnonempty := h.nonempty edit hmem
  have hnonempty' := h.nonempty other hother
  have hpart : span.contains part = true := by
    have := Span.contains_iff.mp houter.1
    rw [Span.contains_iff]
    rcases hside with rfl | rfl <;> simp only <;> omega
  constructor
  · rintro ⟨hin, hout⟩
    refine ⟨⟨Span.contains_trans hpart hin, ?_⟩, hin⟩
    intro around haround haround_in hcontains
    refine hout around haround ?_ hcontains
    have hapart : ¬ edit.span.contains other.span = true := by
      rw [Span.contains_iff]
      have := Span.contains_iff.mp hin
      rcases hside with rfl | rfl <;> simp only at this <;> omega
    -- Whatever is around an edit of the part is not around the edit that divides, nor inside it.
    have hdisjoint : around.span.stop ≤ edit.span.start ∨ edit.span.stop ≤ around.span.start := by
      by_cases heq : around = edit
      · exact absurd (heq ▸ hcontains) hapart
      · rcases Span.disjoint_or_nested (h.laminar.forall haround hmem heq).2 with
          hdisjoint | hinside | hinside
        · exact hdisjoint
        · rw [houter.2 around haround haround_in hinside] at hcontains
          exact absurd hcontains hapart
        · exact absurd (Span.contains_trans hinside hcontains) hapart
    rw [Span.contains_iff] at hin haround_in hcontains ⊢
    rcases hside with rfl | rfl <;> simp only at hin ⊢ <;> omega
  · rintro ⟨⟨_, hout⟩, hin⟩
    exact ⟨hin, fun around haround haround_in => hout around haround
      (Span.contains_trans hpart haround_in)⟩

/-- An outermost edit divides the others into those in front of it and those behind it. -/
theorem split_outermost (h : Nestable edits)
    (hsplit : outermost edits span = before ++ edit :: after) :
    outermost edits ⟨span.start, edit.span.start⟩ = before ∧
      outermost edits ⟨edit.span.stop, span.stop⟩ = after := by
  have hparts : ∀ other, other ∈ outermost edits span ↔
      other ∈ before ∨ other = edit ∨ other ∈ after := by
    intro other
    rw [hsplit, List.mem_append, List.mem_cons]
  obtain ⟨hmem, houter⟩ := mem_outermost.mp ((hparts edit).mpr (.inr (.inl rfl)))
  have hfollow := pairwise_outermost h span
  rw [hsplit, List.pairwise_append, List.pairwise_cons] at hfollow
  obtain ⟨hbefore, ⟨hbehind, hafter⟩, hcross⟩ := hfollow
  have hfront := fun other hother => hcross other hother edit List.mem_cons_self
  have hmembers : ∀ {part : Span},
      (part = ⟨span.start, edit.span.start⟩ ∨ part = ⟨edit.span.stop, span.stop⟩) →
      ∀ other, (other ∈ before ∨ other = edit ∨ other ∈ after) ∧ part.contains other.span = true ↔
        other ∈ edits ∧ Outermost edits part other := by
    intro part hside other
    rw [← hparts, mem_outermost, and_assoc]
    exact and_congr_right fun hother => (outermost_part_iff h hmem houter hside hother).symm
  have hbounds : ∀ other, other ∈ before ∨ other = edit ∨ other ∈ after →
      other.span.start < other.span.stop ∧ span.start ≤ other.span.start ∧
        other.span.stop ≤ span.stop := by
    intro other hother
    obtain ⟨hother, houter'⟩ := mem_outermost.mp ((hparts other).mpr hother)
    exact ⟨h.nonempty other hother, Span.contains_iff.mp houter'.1⟩
  constructor
  · refine outermost_eq_of_mem_iff h hbefore fun other => ?_
    rw [← hmembers (.inl rfl) other, Span.contains_iff]
    constructor
    · intro hother
      exact ⟨.inl hother, (hbounds other (.inl hother)).2.1, hfront other hother⟩
    · rintro ⟨hother, hin⟩
      have hlt := hbounds other hother
      rcases hother with hother | rfl | hother
      · exact hother
      · simp only at hin
        omega
      · have := hbehind other hother
        have := hbounds edit (.inr (.inl rfl))
        simp only at hin
        omega
  · refine outermost_eq_of_mem_iff h hafter fun other => ?_
    rw [← hmembers (.inr rfl) other, Span.contains_iff]
    constructor
    · intro hother
      exact ⟨.inr (.inr hother), hbehind other hother, (hbounds other (.inr (.inr hother))).2.2⟩
    · rintro ⟨hother, hin⟩
      have hlt := hbounds other hother
      rcases hother with hother | rfl | hother
      · have := hfront other hother
        have := hbounds edit (.inr (.inl rfl))
        simp only at hin
        omega
      · simp only at hin
        omega
      · exact hother

end

/-- Around an outermost edit a span is copied as it would be without it. -/
theorem copy_split {changes : ChangeSet} {span : Span} {edit : Edit} (h : Nestable changes.edits)
    (hmem : edit ∈ changes.edits) (houter : Outermost changes.edits span edit) :
    changes.copy span = changes.copy ⟨span.start, edit.span.start⟩ ++ changes.putIn edit ++
      changes.copy ⟨edit.span.stop, span.stop⟩ := by
  obtain ⟨before, after, hsplit, _, hlayout⟩ := layout_once h hmem houter
  obtain ⟨hbefore, hafter⟩ := split_outermost h hsplit
  rw [copy_eq_layout h, copy_eq_layout h, copy_eq_layout h, putIn_eq_replacement h hmem, hlayout,
    layout_eq _ ⟨span.start, edit.span.start⟩, layout_eq _ ⟨edit.span.stop, span.stop⟩, hbefore,
    hafter, List.map_append, List.map_append, String.join_append, String.join_append]
  rfl

end ChangeSet

end JestMigration
