/-
# `Proofs.ChangeSet.Copying` — which bytes of the source are in the new text

The new text is laid out from pieces (`Proofs.ChangeSet.Layout`); a piece is a
text or a span copied from the source.  If there is a new text, its bytes are
those of the texts and spans (`Part.bytes_of_readAll?`).  Where edits begin and
end between characters, so do all the pieces, and there is one
(`render?_of_readable`).  Bytes in no edit are copied once and in order
(`filter_offsets_layout`).

The last section is about any sequence of pushes, accepted or refused
(`pushed`): nothing is recorded that was not asked for, and what is recorded is
disjoint or nested (`nestable_pushed`).
-/
import JestMigration.Proofs.ChangeSet.Layout

namespace JestMigration

/-- An edit of some bytes of the source, with its slots inside. -/
structure Edit.Fits (source : Source) (edit : Edit) : Prop where
  nonempty : edit.span.start < edit.span.stop
  inside : edit.span.stop ≤ source.size
  slots : ∀ slot, .source slot ∈ edit.parts →
    slot.start ≤ slot.stop ∧ edit.span.contains slot = true

/-- The span and the slots of the edit begin and end between characters. -/
def Edit.Readable (source : Source) (edit : Edit) : Prop :=
  (source.slice? edit.span).isSome ∧
    ∀ slot, .source slot ∈ edit.parts → (source.slice? slot).isSome

namespace Part

/-- The bytes of a text, or those of a span of the source. -/
def contents (source : Source) : Part → List UInt8
  | .text value => (Source.mk value).bytes
  | .source span => source.cut span

/-- The offsets that are copied from the source. -/
def offsets : Part → List Nat
  | .text _ => []
  | .source span => List.range' span.start (span.stop - span.start)

/-- Pieces that can be read have the bytes of their texts and spans. -/
theorem bytes_of_readAll? {source : Source} {parts : List Part} : ∀ {text : String},
    readAll? source parts = some text →
      (Source.mk text).bytes = parts.flatMap (contents source) := by
  induction parts with
  | nil =>
      intro text h
      cases h
      rfl
  | cons part rest ih =>
      intro text h
      rw [readAll?] at h
      split at h
      · rename_i value others hvalue hothers
        cases h
        have hpart : (Source.mk value).bytes = part.contents source := by
          cases part with
          | text written =>
              cases hvalue
              rfl
          | source span => exact Source.bytes_of_slice? hvalue
        rw [Source.bytes_append, hpart, ih hothers, List.flatMap_cons]
      · exact absurd h (by simp)

theorem mem_offsets {offset : Nat} {part : Part} (h : offset ∈ part.offsets) :
    ∃ span, part = .source span ∧ span.start ≤ offset ∧ offset < span.stop := by
  cases part with
  | text value => exact absurd h List.not_mem_nil
  | source span =>
      obtain ⟨hle, hlt⟩ := List.mem_range'_1.mp h
      exact ⟨span, rfl, hle, by omega⟩

end Part

namespace ChangeSet

/-! ## Bytes -/

/-- Is the offset in none of the edits? -/
def outside (edits : List Edit) (offset : Nat) : Bool :=
  edits.all fun edit => decide (offset < edit.span.start) || decide (edit.span.stop ≤ offset)

theorem range'_split {a b c : Nat} (hab : a ≤ b) (hbc : b ≤ c) :
    List.range' a (c - a) = List.range' a (b - a) ++ List.range' b (c - b) := by
  obtain ⟨m, rfl⟩ := Nat.exists_eq_add_of_le hab
  obtain ⟨n, rfl⟩ := Nat.exists_eq_add_of_le hbc
  rw [Nat.add_sub_cancel_left, Nat.add_sub_cancel_left, Nat.add_assoc, Nat.add_sub_cancel_left,
    List.range'_append_1]

/-- Filling in pieces copies the other offsets once and in order. -/
theorem filter_offsets_fill {p : Nat → Bool} {stop : Nat} :
    ∀ {place : Nat} {patches : List (Span × List Part)}, place ≤ stop →
      (∀ patch ∈ patches, place ≤ patch.1.start ∧ patch.1.start ≤ patch.1.stop ∧
        patch.1.stop ≤ stop) →
      (patches.Pairwise fun a b => a.1.stop ≤ b.1.start) →
      (∀ patch ∈ patches, ∀ i, patch.1.start ≤ i → i < patch.1.stop → p i = false) →
      (∀ patch ∈ patches, ∀ part ∈ patch.2, ∀ i ∈ part.offsets,
        patch.1.start ≤ i ∧ i < patch.1.stop) →
      ((fill stop place patches).flatMap Part.offsets).filter p =
        (List.range' place (stop - place)).filter p
  | place, [], _, _, _, _, _ => by simp [fill, Part.offsets]
  | place, (span, pieces) :: rest, hplace, hin, hpairs, hskip, hbody => by
      obtain ⟨hbehind, hpairs⟩ := List.pairwise_cons.mp hpairs
      obtain ⟨hle, hforward, hstop⟩ := hin (span, pieces) List.mem_cons_self
      have ih := filter_offsets_fill (p := p) hstop
        (fun patch hpatch => ⟨hbehind patch hpatch, (hin patch (List.mem_cons_of_mem _ hpatch)).2⟩)
        hpairs (fun patch hpatch => hskip patch (List.mem_cons_of_mem _ hpatch))
        (fun patch hpatch => hbody patch (List.mem_cons_of_mem _ hpatch))
      have hpieces : (pieces.flatMap Part.offsets).filter p = [] := by
        rw [List.filter_eq_nil_iff]
        intro i hi
        obtain ⟨part, hpart, hi⟩ := List.mem_flatMap.mp hi
        obtain ⟨hstart, hend⟩ := hbody (span, pieces) List.mem_cons_self part hpart i hi
        rw [hskip (span, pieces) List.mem_cons_self i hstart hend]
        exact Bool.false_ne_true
      have hmiddle : (List.range' span.start (span.stop - span.start)).filter p = [] := by
        rw [List.filter_eq_nil_iff]
        intro i hi
        obtain ⟨hstart, hend⟩ := List.mem_range'_1.mp hi
        rw [hskip (span, pieces) List.mem_cons_self i hstart (by simp only; omega)]
        exact Bool.false_ne_true
      have hsplit : List.range' place (stop - place) =
          List.range' place (span.start - place) ++
            (List.range' span.start (span.stop - span.start) ++
              List.range' span.stop (stop - span.stop)) := by
        rw [range'_split hle (Nat.le_trans hforward hstop), range'_split hforward hstop]
      rw [fill, List.flatMap_cons, List.flatMap_append, List.filter_append, List.filter_append,
        hpieces, ih, hsplit, List.filter_append, List.filter_append, hmiddle]
      rfl

/-- Bytes in no edit are copied once and in order. -/
theorem filter_offsets_layout {edits : List Edit} {span : Span} (h : Nestable edits)
    (hforward : span.start ≤ span.stop) :
    ((layout edits span).flatMap Part.offsets).filter (outside edits) =
      (List.range' span.start (span.stop - span.start)).filter (outside edits) := by
  rw [layout_eq]
  refine filter_offsets_fill hforward ?_ ?_ ?_ ?_
  · intro patch hpatch
    obtain ⟨edit, hedit, rfl⟩ := List.mem_map.mp hpatch
    obtain ⟨hedit, hin, _⟩ := mem_outermost.mp hedit
    obtain ⟨hstart, hstop⟩ := Span.contains_iff.mp hin
    exact ⟨hstart, Nat.le_of_lt (h.nonempty edit hedit), hstop⟩
  · exact List.pairwise_map.mpr (pairwise_outermost h span)
  · intro patch hpatch i hstart hstop
    obtain ⟨edit, hedit, rfl⟩ := List.mem_map.mp hpatch
    rw [outside, List.all_eq_false]
    refine ⟨edit, (mem_outermost.mp hedit).1, ?_⟩
    simp only [Bool.or_eq_true, decide_eq_true_eq]
    simp only at hstart hstop
    omega
  · intro patch hpatch part hpart i hi
    obtain ⟨edit, hedit, rfl⟩ := List.mem_map.mp hpatch
    obtain ⟨piece, rfl, hstart, hstop⟩ := Part.mem_offsets hi
    obtain ⟨hedit, _⟩ := mem_outermost.mp hedit
    obtain ⟨part, hslot, hpiece⟩ := List.mem_flatMap.mp hpart
    cases part with
    | text value => simp [Part.fillSlot] at hpiece
    | source slot =>
        have hin := Span.contains_trans (h.slots edit hedit slot hslot)
          (contains_of_mem_layout (h.sublist List.filter_sublist) hpiece)
        obtain ⟨hle, hge⟩ := Span.contains_iff.mp hin
        exact ⟨by simp only; omega, by simp only; omega⟩

/-- Sweeping over edits that can be read, only pieces that can be read are copied. -/
theorem isSome_slice?_of_mem_sweep {source : Source} {body : Edit → List Part} {span piece : Span} :
    ∀ {place : Nat} {edits : List Edit}, (source.slice? ⟨place, span.stop⟩).isSome →
      (∀ edit ∈ edits, (source.slice? edit.span).isSome) →
      (∀ edit ∈ edits, .source piece ∈ body edit → (source.slice? piece).isSome) →
      .source piece ∈ sweep body span place edits → (source.slice? piece).isSome
  | place, [], hplace, _, _, hpiece => by
      simp only [sweep, List.mem_singleton, Part.source.injEq] at hpiece
      rw [hpiece]
      exact hplace
  | place, edit :: rest, hplace, hedits, hbody, hpiece => by
      have hrest := fun other hother => hedits other (List.mem_cons_of_mem _ hother)
      have hbodies := fun other hother => hbody other (List.mem_cons_of_mem _ hother)
      rw [sweep] at hpiece
      split at hpiece
      · rename_i htaken
        simp only [Bool.and_eq_true, decide_eq_true_eq] at htaken
        obtain ⟨_, hstart, hstop⟩ := Source.isSome_slice?_iff.mp hplace
        obtain ⟨_, hfirst, hlast⟩ := Source.isSome_slice?_iff.mp (hedits edit List.mem_cons_self)
        rcases List.mem_cons.mp hpiece with hgap | hpiece
        · rw [Part.source.injEq] at hgap
          rw [hgap]
          exact Source.isSome_slice?_iff.mpr ⟨htaken.2, hstart, hfirst⟩
        · rcases List.mem_append.mp hpiece with hpiece | hpiece
          · exact hbody edit List.mem_cons_self hpiece
          · refine isSome_slice?_of_mem_sweep ?_ hrest hbodies hpiece
            exact Source.isSome_slice?_iff.mpr ⟨(Span.contains_iff.mp htaken.1).2, hlast, hstop⟩
      · exact isSome_slice?_of_mem_sweep hplace hrest hbodies hpiece

theorem isSome_slice?_of_mem_expand {source : Source} {piece : Span} :
    ∀ {depth : Nat} {edits : List Edit} {span : Span}, (∀ edit ∈ edits, edit.Readable source) →
      (source.slice? span).isSome → .source piece ∈ expand depth edits span →
      (source.slice? piece).isSome
  | 0, edits, span, _, hspan, hpiece => by
      simp only [expand, List.mem_singleton, Part.source.injEq] at hpiece
      rw [hpiece]
      exact hspan
  | depth + 1, edits, span, hedits, hspan, hpiece => by
      rw [expand] at hpiece
      refine isSome_slice?_of_mem_sweep hspan (fun edit hedit => (hedits edit hedit).1) ?_ hpiece
      intro edit hedit hpiece
      obtain ⟨part, hpart, hmem⟩ := List.mem_flatMap.mp hpiece
      cases part with
      | text value => simp at hmem
      | source slot =>
          exact isSome_slice?_of_mem_expand
            (fun other hother => hedits other (List.mem_filter.mp hother).1)
            ((hedits edit hedit).2 slot hpart) hmem

/-- Edits that begin and end between characters are rendered. -/
theorem render?_of_readable {changes : ChangeSet}
    (h : ∀ edit ∈ changes.edits, edit.Readable changes.source) :
    changes.render? = some changes.render := by
  refine render?_eq_some_iff.mpr ⟨?_, rfl⟩
  intro piece hpiece
  exact isSome_slice?_of_mem_expand (fun edit hedit => h edit (List.mem_mergeSort.mp hedit))
    changes.source.isSome_slice?_whole hpiece

/-- With edits that can be read, the bytes of the new text are those of its pieces. -/
theorem bytes_render_eq_contents {changes : ChangeSet}
    (h : ∀ edit ∈ changes.edits, edit.Readable changes.source) :
    (Source.mk changes.render).bytes =
      changes.pieces.flatMap (Part.contents changes.source) :=
  Part.bytes_of_readAll? (render?_of_readable h)

/-! ## Any sequence of pushes -/

/-- The changes after pushing edits, one after the other, whatever is answered. -/
def pushed (source : Source) (asked : List Edit) : ChangeSet :=
  performAll { source } (asked.map .push)

theorem perform_push (changes : ChangeSet) (edit : Edit) :
    (changes.perform (.push edit)).source = changes.source ∧
      ∀ recorded ∈ (changes.perform (.push edit)).edits,
        recorded ∈ changes.edits ∨ recorded = edit := by
  unfold perform
  split
  · rename_i after hafter
    rcases push_cases hafter with ⟨rfl, _⟩ | ⟨rfl, _⟩
    · exact ⟨rfl, fun _ hrecorded => .inl hrecorded⟩
    · refine ⟨rfl, ?_⟩
      intro recorded hrecorded
      exact (List.mem_append.mp hrecorded).imp_right List.mem_singleton.mp
  · exact ⟨rfl, fun _ hrecorded => .inl hrecorded⟩

/-- Nothing is recorded that was not asked for. -/
theorem mem_of_mem_pushed (source : Source) (asked : List Edit) :
    (pushed source asked).source = source ∧
      ∀ edit ∈ (pushed source asked).edits, edit ∈ asked := by
  suffices hrun : ∀ changes : ChangeSet,
      (changes.performAll (asked.map .push)).source = changes.source ∧
        ∀ edit ∈ (changes.performAll (asked.map .push)).edits,
          edit ∈ changes.edits ∨ edit ∈ asked by
    obtain ⟨hsource, hedits⟩ := hrun { source }
    exact ⟨hsource, fun edit hedit => (hedits edit hedit).resolve_left List.not_mem_nil⟩
  induction asked with
  | nil =>
      intro changes
      exact ⟨rfl, fun _ hedit => .inl hedit⟩
  | cons first rest ih =>
      intro changes
      obtain ⟨hstep_source, hstep⟩ := perform_push changes first
      obtain ⟨hsource, hedits⟩ := ih (changes.perform (.push first))
      refine ⟨hsource.trans hstep_source, ?_⟩
      intro edit hedit
      rcases hedits edit hedit with hbefore | hrest
      · rcases hstep edit hbefore with hold | rfl
        · exact .inl hold
        · exact .inr List.mem_cons_self
      · exact .inr (List.mem_cons_of_mem _ hrest)

theorem nestable_pushed {source : Source} {asked : List Edit}
    (h : ∀ edit ∈ asked, edit.Fits source) : Nestable (pushed source asked).edits where
  laminar := laminar_performAll source (asked.map .push)
  nonempty := fun edit hedit => (h edit ((mem_of_mem_pushed source asked).2 edit hedit)).nonempty
  slots := fun edit hedit slot hslot =>
    ((h edit ((mem_of_mem_pushed source asked).2 edit hedit)).slots slot hslot).2

end ChangeSet

end JestMigration
