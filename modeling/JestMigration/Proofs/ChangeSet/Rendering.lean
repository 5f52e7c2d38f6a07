/-
# `Proofs.ChangeSet.Rendering` — what rendering copies and what it does not

Rendering is a sweep from left to right.  Seen from outside, the new text is
the old one with some of the recorded spans patched, in source order and one
after the other (`exists_splice`), so a byte that is in none of them is copied
and bytes keep their order (`exists_place_splice`).

What a recorded edit contains is copied only through a slot.  If no slot comes
near it, apart from those that hold the edit as a whole, then it is in no piece
of the new text (`separate_of_mem_pieces`).
-/
import JestMigration.ChangeSet.Render
import JestMigration.Proofs.ChangeSet.Recording
import JestMigration.Proofs.Source.Slice
import Mathlib.Data.List.Pairwise

namespace JestMigration

namespace Source

/-! ## Patched texts -/

/-- The bytes from `place` on with texts put in the place of spans, from left to right. -/
def splice (source : Source) : Nat → List (Span × List UInt8) → List UInt8
  | place, [] => source.cut ⟨place, source.size⟩
  | place, (span, text) :: rest =>
    source.cut ⟨place, span.start⟩ ++ text ++ source.splice span.stop rest

/-- The spans follow each other, and lie between `place` and the end of the text. -/
def Ordered (source : Source) : Nat → List (Span × List UInt8) → Prop
  | place, [] => place ≤ source.size
  | place, (span, _) :: rest =>
    place ≤ span.start ∧ span.start ≤ span.stop ∧ Ordered source span.stop rest

theorem Ordered.le_size {source : Source} : ∀ {place : Nat} {patches : List (Span × List UInt8)},
    source.Ordered place patches → place ≤ source.size
  | _, [], h => h
  | _, (_, _) :: _, h => Nat.le_trans h.1 (Nat.le_trans h.2.1 h.2.2.le_size)

/-- A byte in none of the spans is found in the patched text, and such bytes keep their order. -/
theorem exists_place_splice {source : Source} :
    ∀ {place : Nat} {patches : List (Span × List UInt8)}, source.Ordered place patches →
      ∃ position : Nat → Nat,
        ∀ i, place ≤ i → i < source.size →
          (∀ patch ∈ patches, i < patch.1.start ∨ patch.1.stop ≤ i) →
          (source.splice place patches)[position i]? = source.byte? i ∧
          ∀ j, i < j → j < source.size →
            (∀ patch ∈ patches, j < patch.1.start ∨ patch.1.stop ≤ j) → position i < position j
  | place, [], hordered => by
      refine ⟨fun i => i - place, ?_⟩
      intro i hle hlt _
      refine ⟨?_, fun j hij _ _ => by simp only; omega⟩
      rw [splice, getElem?_cut _ _ (by simp only; omega)]
      exact congrArg source.byte? (by simp only; omega)
  | place, (span, text) :: rest, hordered => by
      obtain ⟨hstart, hforward, hordered⟩ := hordered
      obtain ⟨position, hposition⟩ := exists_place_splice hordered
      have hsize := hordered.le_size
      have hlength : (source.cut ⟨place, span.start⟩).length = span.start - place :=
        length_cut (by simp only; omega)
      -- Left of the patch bytes keep their distance, behind it they are where they were before.
      refine ⟨fun i => if i < span.start then i - place
        else span.start - place + text.length + position i, ?_⟩
      intro i hle hlt hout
      have hspan := hout (span, text) List.mem_cons_self
      have hrest := fun patch hpatch => hout patch (List.mem_cons_of_mem _ hpatch)
      rcases Nat.lt_or_ge i span.start with hleft | hright
      · simp only [hleft, if_true]
        constructor
        · rw [splice, List.append_assoc, List.getElem?_append_left (by omega),
            getElem?_cut _ _ (by simp only; omega)]
          exact congrArg source.byte? (by simp only; omega)
        · intro j hij _ hout'
          split <;> omega
      · have hbehind : span.stop ≤ i := by
          rcases hspan with h | h
          · exact absurd h (by simp only; omega)
          · exact h
        obtain ⟨hbyte, horder⟩ := hposition i hbehind hlt hrest
        simp only [Nat.not_lt.mpr hright, if_false]
        constructor
        · rw [splice, List.getElem?_append_right (by simp [hlength]), List.length_append,
            hlength, Nat.add_sub_cancel_left, hbyte]
        · intro j hij hjsize hout'
          have hj : ¬ j < span.start := by omega
          simp only [hj, if_false]
          have hlt' := horder j hij hjsize fun patch hpatch =>
            hout' patch (List.mem_cons_of_mem _ hpatch)
          omega

end Source

/-! ## The bytes of pieces -/

namespace Part

/-- The bytes that a piece stands for. -/
def bytes (source : Source) (part : Part) : List UInt8 :=
  (Source.mk (part.read source)).bytes

/-- Pieces are read one after the other, and they have to be read all. -/
theorem readAll?_eq_some_iff {source : Source} {parts : List Part} : ∀ {text : String},
    readAll? source parts = some text ↔
      (∀ part ∈ parts, (part.read? source).isSome) ∧
        String.join (parts.map (read source)) = text := by
  induction parts with
  | nil =>
      intro text
      simp [readAll?]
  | cons part rest ih =>
      intro text
      rw [readAll?, List.forall_mem_cons, List.map_cons, String.join_cons, read]
      cases hpart : part.read? source with
      | none => simp
      | some value =>
          cases hrest : readAll? source rest with
          | none =>
              have hnot : ¬ ∀ part ∈ rest, (part.read? source).isSome := by
                intro hall
                rw [ih.mpr ⟨hall, rfl⟩] at hrest
                exact absurd hrest (by simp)
              simp [hnot]
          | some others =>
              obtain ⟨hall, hothers⟩ := ih.mp hrest
              rw [hothers]
              simpa using fun _ => hall

end Part

theorem Source.bytes_append (a b : String) :
    (Source.mk (a ++ b)).bytes = (Source.mk a).bytes ++ (Source.mk b).bytes := by
  simp [Source.bytes]

theorem Source.bytes_join (texts : List String) :
    (Source.mk (String.join texts)).bytes = texts.flatMap fun text => (Source.mk text).bytes := by
  induction texts with
  | nil => rfl
  | cons text rest ih => rw [String.join_cons, Source.bytes_append, ih, List.flatMap_cons]

/-- A copied piece between boundaries has the bytes of its span. -/
theorem Part.bytes_source {source : Source} {span : Span} (hle : span.start ≤ span.stop)
    (hstart : source.isBoundary span.start = true) (hstop : source.isBoundary span.stop = true) :
    Part.bytes source (.source span) = source.cut span := by
  obtain ⟨text, htext⟩ := Source.exists_slice? hle hstart hstop
  rw [Part.bytes, Part.read, Part.read?, htext, Option.getD_some, Source.bytes_of_slice? htext]

theorem Source.text_eq_of_bytes {a b : String} (h : (Source.mk a).bytes = (Source.mk b).bytes) :
    a = b := by
  apply String.toByteArray_inj.mp
  apply ByteArray.ext
  exact Array.toList_inj.mp h

namespace ChangeSet

/-! ## The new text as a patched one -/

theorem bytes_render (changes : ChangeSet) : (Source.mk changes.render).bytes =
    changes.pieces.flatMap (Part.bytes changes.source) := by
  rw [render, Source.bytes_join, List.flatMap_map]
  rfl

/-- There is a new text just if every span that is copied lies between characters. -/
theorem render?_eq_some_iff {changes : ChangeSet} {text : String} :
    changes.render? = some text ↔
      (∀ piece, .source piece ∈ changes.pieces → (changes.source.slice? piece).isSome) ∧
        changes.render = text := by
  rw [render?, Part.readAll?_eq_some_iff, render]
  refine and_congr_left ?_
  intro _
  constructor
  · intro hall piece hpiece
    exact hall (.source piece) hpiece
  · intro hall part hpart
    cases part with
    | text value => rfl
    | source piece => exact hall piece hpart

/-- Without edits the text stays as it is. -/
theorem render_empty (source : Source) : ChangeSet.render { source } = source.text := by
  apply Source.text_eq_of_bytes
  have hpieces : ChangeSet.pieces { source } = [.source source.whole] := rfl
  rw [bytes_render, hpieces, List.flatMap_singleton]
  exact (Part.bytes_source (Nat.zero_le _) source.isBoundary_zero source.isBoundary_size).trans
    source.cut_whole

/-- A sweep over the whole text patches some of the edits it is given. -/
theorem exists_splice_sweep {source : Source} (body : Edit → List Part) :
    ∀ {place : Nat} {edits : List Edit}, source.isBoundary place = true →
      (∀ edit ∈ edits, (source.slice? edit.span).isSome) →
      ∃ patches, source.Ordered place patches ∧
        (∀ patch ∈ patches, ∃ edit ∈ edits, patch.1 = edit.span) ∧
        (sweep body source.whole place edits).flatMap (Part.bytes source) =
          source.splice place patches
  | place, [], hplace, _ => by
      have hle := Source.le_size_of_isBoundary hplace
      refine ⟨[], hle, fun _ h => absurd h List.not_mem_nil, ?_⟩
      rw [sweep, List.flatMap_singleton, Part.bytes_source hle hplace source.isBoundary_size,
        Source.splice, Source.whole]
  | place, edit :: rest, hplace, hedits => by
      have hrest : ∀ edit ∈ rest, (source.slice? edit.span).isSome :=
        fun other hother => hedits other (List.mem_cons_of_mem _ hother)
      rw [sweep]
      split
      · rename_i htaken
        simp only [Bool.and_eq_true, decide_eq_true_eq] at htaken
        obtain ⟨text, htext⟩ := Option.isSome_iff_exists.mp (hedits edit List.mem_cons_self)
        obtain ⟨hforward, hstart, hstop⟩ := Source.bounds_of_slice? htext
        obtain ⟨patches, hordered, hspans, hbytes⟩ := exists_splice_sweep body hstop hrest
        refine ⟨(edit.span, (body edit).flatMap (Part.bytes source)) :: patches,
          ⟨htaken.2, hforward, hordered⟩, ?_, ?_⟩
        · intro patch hpatch
          rcases List.mem_cons.mp hpatch with rfl | hpatch
          · exact ⟨edit, List.mem_cons_self, rfl⟩
          · obtain ⟨other, hother, hspan⟩ := hspans patch hpatch
            exact ⟨other, List.mem_cons_of_mem _ hother, hspan⟩
        · rw [List.flatMap_cons, List.flatMap_append, hbytes,
            Part.bytes_source htaken.2 hplace hstart, Source.splice, List.append_assoc]
      · obtain ⟨patches, hordered, hspans, hbytes⟩ := exists_splice_sweep body hplace hrest
        refine ⟨patches, hordered, ?_, hbytes⟩
        intro patch hpatch
        obtain ⟨other, hother, hspan⟩ := hspans patch hpatch
        exact ⟨other, List.mem_cons_of_mem _ hother, hspan⟩

/-- The new text is the old one with some of the recorded spans patched. -/
theorem exists_splice (changes : ChangeSet)
    (h : ∀ edit ∈ changes.edits, (changes.source.slice? edit.span).isSome) :
    ∃ patches, changes.source.Ordered 0 patches ∧
      (∀ patch ∈ patches, ∃ edit ∈ changes.edits, patch.1 = edit.span) ∧
      (Source.mk changes.render).bytes = changes.source.splice 0 patches := by
  have hsorted : ∀ edit ∈ changes.edits.mergeSort Edit.precedes,
      (changes.source.slice? edit.span).isSome :=
    fun edit hedit => h edit (List.mem_mergeSort.mp hedit)
  rw [bytes_render, pieces]
  cases hsize : changes.size with
  | zero =>
      refine ⟨[], Nat.zero_le _, fun _ h => absurd h List.not_mem_nil, ?_⟩
      rw [expand, List.flatMap_singleton, Part.bytes_source (Nat.zero_le _)
        (Source.isBoundary_zero _) (Source.isBoundary_size _)]
      rfl
  | succ depth =>
      obtain ⟨patches, hordered, hspans, heq⟩ :=
        exists_splice_sweep _ (Source.isBoundary_zero changes.source) hsorted
      refine ⟨patches, hordered, ?_, ?_⟩
      · intro patch hpatch
        obtain ⟨edit, hedit, hspan⟩ := hspans patch hpatch
        exact ⟨edit, List.mem_mergeSort.mp hedit, hspan⟩
      · rw [expand]
        exact heq

end ChangeSet

/-! ## What is not copied -/

/-- The spans share no byte. -/
def Span.Separate (a b : Span) : Prop :=
  a.stop ≤ b.start ∨ b.stop ≤ a.start

instance (a b : Span) : Decidable (a.Separate b) :=
  inferInstanceAs (Decidable (_ ∨ _))

theorem Span.Separate.of_contains {a b inner : Span} (h : a.Separate b)
    (hinner : a.contains inner = true) : inner.Separate b := by
  obtain ⟨hstart, hstop⟩ := Span.contains_iff.mp hinner
  rcases h with h | h
  · exact .inl (by omega)
  · exact .inr (by omega)

namespace ChangeSet

/-- Spans go forward, and every edit keeps its slots inside. -/
structure Tidy (edits : List Edit) : Prop where
  forward : ∀ edit ∈ edits, edit.span.start ≤ edit.span.stop
  slots : ∀ edit ∈ edits, ∀ slot, .source slot ∈ edit.parts → edit.span.contains slot = true

theorem Tidy.filter {edits : List Edit} (h : Tidy edits) (p : Edit → Bool) :
    Tidy (edits.filter p) where
  forward := fun edit hedit => h.forward edit (List.mem_filter.mp hedit).1
  slots := fun edit hedit => h.slots edit (List.mem_filter.mp hedit).1

theorem contains_of_mem_sweep {body : Edit → List Part} {span : Span} :
    ∀ {place : Nat} {edits : List Edit}, span.start ≤ place →
      (∀ edit ∈ edits, edit.span.start ≤ edit.span.stop) →
      (∀ edit ∈ edits, ∀ piece, .source piece ∈ body edit → edit.span.contains piece = true) →
      ∀ piece, .source piece ∈ sweep body span place edits → span.contains piece = true
  | place, [], hplace, _, _, piece, hpiece => by
      simp only [sweep, List.mem_singleton, Part.source.injEq] at hpiece
      rw [hpiece]
      exact Span.contains_iff.mpr ⟨hplace, Nat.le_refl _⟩
  | place, edit :: rest, hplace, hforward, hbody, piece, hpiece => by
      have hrest := fun other hother => hforward other (List.mem_cons_of_mem _ hother)
      have hbodies := fun other hother => hbody other (List.mem_cons_of_mem _ hother)
      rw [sweep] at hpiece
      split at hpiece
      · rename_i htaken
        simp only [Bool.and_eq_true, decide_eq_true_eq] at htaken
        obtain ⟨hstart, hstop⟩ := Span.contains_iff.mp htaken.1
        have hedit := hforward edit List.mem_cons_self
        rcases List.mem_cons.mp hpiece with hgap | hpiece
        · rw [Part.source.injEq] at hgap
          rw [hgap]
          exact Span.contains_iff.mpr ⟨hplace, by simp only; omega⟩
        · rcases List.mem_append.mp hpiece with hpiece | hpiece
          · have hin := Span.contains_iff.mp (hbody edit List.mem_cons_self piece hpiece)
            exact Span.contains_iff.mpr ⟨by omega, by omega⟩
          · exact contains_of_mem_sweep (by omega) hrest hbodies piece hpiece
      · exact contains_of_mem_sweep hplace hrest hbodies piece hpiece

/-- Copying a span copies nothing outside it. -/
theorem contains_of_mem_expand : ∀ {depth : Nat} {edits : List Edit} {span : Span}, Tidy edits →
    ∀ piece, .source piece ∈ expand depth edits span → span.contains piece = true
  | 0, edits, span, _, piece, hpiece => by
      simp only [expand, List.mem_singleton, Part.source.injEq] at hpiece
      rw [hpiece]
      exact Span.contains_self span
  | depth + 1, edits, span, htidy, piece, hpiece => by
      rw [expand] at hpiece
      refine contains_of_mem_sweep (Nat.le_refl _) htidy.forward ?_ piece hpiece
      intro edit hedit piece hpiece
      obtain ⟨part, hpart, hmem⟩ := List.mem_flatMap.mp hpiece
      cases part with
      | text value => simp at hmem
      | source slot =>
          have hslot := Span.contains_iff.mp (htidy.slots edit hedit slot hpart)
          have hin := Span.contains_iff.mp
            (contains_of_mem_expand (htidy.filter _) piece hmem)
          exact Span.contains_iff.mpr ⟨by omega, by omega⟩

end ChangeSet

namespace Edit

theorem precedes_iff {a b : Edit} : a.precedes b = true ↔ a.span.start < b.span.start ∨
    a.span.start = b.span.start ∧ b.span.stop ≤ a.span.stop := by
  simp [precedes]

theorem precedes_trans {a b c : Edit} (hab : a.precedes b = true) (hbc : b.precedes c = true) :
    a.precedes c = true := by
  rw [precedes_iff] at *
  omega

theorem precedes_total (a b : Edit) : (a.precedes b || b.precedes a) = true := by
  rw [Bool.or_eq_true, precedes_iff, precedes_iff]
  omega

theorem sorted_mergeSort (edits : List Edit) :
    (edits.mergeSort precedes).Pairwise fun a b => a.precedes b = true := by
  apply List.pairwise_mergeSort
  · exact fun _ _ _ => precedes_trans
  · exact precedes_total

end Edit

namespace ChangeSet

/-- `cover` replaces `target`: it contains it and does not copy it, and any other slot that comes
near the target holds all of `cover`. -/
structure Hidden (edits : List Edit) (cover : Edit) (target : Span) : Prop where
  mem : cover ∈ edits
  tidy : Tidy edits
  sorted : edits.Pairwise fun a b => a.precedes b = true
  laminar : edits.Pairwise Compatible
  nonempty : target.start < target.stop
  covers : cover.span.contains target = true
  own : ∀ slot, .source slot ∈ cover.parts → slot.Separate target
  slots : ∀ edit ∈ edits, ∀ slot, .source slot ∈ edit.parts →
    slot.Separate target ∨ slot.contains cover.span = true

theorem Hidden.filter {edits : List Edit} {cover edit : Edit} {target : Span}
    (h : Hidden edits cover target) (hne : cover.span ≠ edit.span) :
    Hidden (edits.filter fun other => other.span != edit.span) cover target where
  mem := List.mem_filter.mpr ⟨h.mem, by simpa using hne⟩
  tidy := h.tidy.filter _
  sorted := h.sorted.filter _
  laminar := h.laminar.filter _
  nonempty := h.nonempty
  covers := h.covers
  own := h.own
  slots := fun other hother => h.slots other (List.mem_filter.mp hother).1

/-- An edit that is taken before `cover` ends before it, or holds it. -/
theorem stop_le_or_contains {edit cover : Edit} (hprecedes : edit.precedes cover = true)
    (hcompatible : Compatible edit cover) (hcover : cover.span.start < cover.span.stop) :
    edit.span.start ≤ cover.span.start ∧
      (edit.span.stop ≤ cover.span.start ∨ cover.span.stop ≤ edit.span.stop) := by
  obtain ⟨hne, hoverlaps⟩ := hcompatible
  have hne' : edit.span.start = cover.span.start → edit.span.stop ≠ cover.span.stop := by
    intro hstart hstop
    exact hne (congrArg₂ Span.mk hstart hstop)
  rw [Edit.precedes_iff] at hprecedes
  simp only [Span.overlaps, Span.contains, Bool.and_eq_false_iff, decide_eq_false_iff_not,
    Bool.not_eq_false', Bool.and_eq_true, decide_eq_true_eq] at hoverlaps
  omega

/-- Sweeping over a span with the cover in it, nothing of the target is copied: either the sweep
has passed the target, or the cover is still to come. -/
theorem separate_of_mem_sweep {body : Edit → List Part} {span target : Span} {cover : Edit}
    (hcovers : cover.span.contains target = true) (hin : span.contains cover.span = true)
    (hnonempty : target.start < target.stop) :
    ∀ {place : Nat} {edits : List Edit},
      edits.Pairwise (fun a b => a.precedes b = true) → edits.Pairwise Compatible →
      (∀ edit ∈ edits, edit.span.start ≤ edit.span.stop) →
      (∀ edit ∈ edits, ∀ piece, .source piece ∈ body edit → piece.Separate target) →
      target.stop ≤ place ∨ (cover ∈ edits ∧ place ≤ cover.span.start) →
      ∀ piece, .source piece ∈ sweep body span place edits → piece.Separate target
  | place, [], _, _, _, _, hplace, piece, hpiece => by
      simp only [sweep, List.mem_singleton, Part.source.injEq] at hpiece
      rcases hplace with hpassed | ⟨hmem, _⟩
      · rw [hpiece]
        exact .inr hpassed
      · exact absurd hmem List.not_mem_nil
  | place, edit :: rest, hsorted, hlaminar, hforward, hbody, hplace, piece, hpiece => by
      obtain ⟨hbefore, hsorted⟩ := List.pairwise_cons.mp hsorted
      obtain ⟨hagree, hlaminar⟩ := List.pairwise_cons.mp hlaminar
      have hedit := hforward edit List.mem_cons_self
      have hrest := fun other hother => hforward other (List.mem_cons_of_mem _ hother)
      have hbodies := fun other hother => hbody other (List.mem_cons_of_mem _ hother)
      obtain ⟨hstart, hstop⟩ := Span.contains_iff.mp hcovers
      rw [sweep] at hpiece
      split at hpiece
      · rename_i htaken
        simp only [Bool.and_eq_true, decide_eq_true_eq] at htaken
        -- What is copied in front of the edit ends before the target, or begins behind it.
        have hstep : (target.stop ≤ place ∨ edit.span.start ≤ target.start) ∧
            (target.stop ≤ edit.span.stop ∨ cover ∈ rest ∧ edit.span.stop ≤ cover.span.start) := by
          rcases hplace with hpassed | ⟨hmem, hle⟩
          · exact ⟨.inl hpassed, .inl (by omega)⟩
          · rcases List.mem_cons.mp hmem with rfl | hmem
            · exact ⟨.inr hstart, .inl hstop⟩
            · obtain ⟨hfirst, hcases⟩ := stop_le_or_contains (hbefore cover hmem)
                (hagree cover hmem) (by omega)
              rcases hcases with hends | hholds
              · exact ⟨.inr (by omega), .inr ⟨hmem, hends⟩⟩
              · exact ⟨.inr (by omega), .inl (by omega)⟩
        rcases List.mem_cons.mp hpiece with hgap | hpiece
        · rw [Part.source.injEq] at hgap
          rw [hgap]
          rcases hstep.1 with h | h
          · exact .inr h
          · exact .inl h
        · rcases List.mem_append.mp hpiece with hpiece | hpiece
          · exact hbody edit List.mem_cons_self piece hpiece
          · exact separate_of_mem_sweep hcovers hin hnonempty hsorted hlaminar hrest hbodies
              hstep.2 piece hpiece
      · rename_i hskipped
        refine separate_of_mem_sweep hcovers hin hnonempty hsorted hlaminar hrest hbodies ?_
          piece hpiece
        rcases hplace with hpassed | ⟨hmem, hle⟩
        · exact .inl hpassed
        · rcases List.mem_cons.mp hmem with rfl | hmem
          · exact absurd (by simp [hin, hle]) hskipped
          · exact .inr ⟨hmem, hle⟩

/-- Without an edit there are fewer edits to go through. -/
theorem length_filter_span_lt {edits : List Edit} {edit : Edit} (h : edit ∈ edits) :
    (edits.filter fun other => other.span != edit.span).length < edits.length :=
  List.length_filter_lt_length_iff_exists.mpr ⟨edit, h, by simp⟩

/-- Copying a span with the cover in it copies nothing of the target. -/
theorem separate_of_mem_expand {target : Span} {cover : Edit} :
    ∀ {depth : Nat} {edits : List Edit} {span : Span}, Hidden edits cover target →
      edits.length ≤ depth → span.contains cover.span = true →
      ∀ piece, .source piece ∈ expand depth edits span → piece.Separate target
  | 0, edits, _, h, hdepth, _, _, _ => by
      have hmem := h.mem
      rw [List.length_eq_zero_iff.mp (Nat.le_zero.mp hdepth)] at hmem
      exact absurd hmem List.not_mem_nil
  | depth + 1, edits, span, h, hdepth, hin, piece, hpiece => by
      rw [expand] at hpiece
      refine separate_of_mem_sweep h.covers hin h.nonempty h.sorted h.laminar h.tidy.forward ?_
        (.inr ⟨h.mem, (Span.contains_iff.mp hin).1⟩) piece hpiece
      intro edit hedit piece hpiece
      obtain ⟨part, hpart, hmem⟩ := List.mem_flatMap.mp hpiece
      cases part with
      | text value => simp at hmem
      | source slot =>
          have hseparate : slot.Separate target → piece.Separate target := fun hslot =>
            hslot.of_contains (contains_of_mem_expand (h.tidy.filter _) piece hmem)
          by_cases hsame : cover = edit
          · exact hseparate (h.own slot (hsame ▸ hpart))
          · have hne : cover.span ≠ edit.span := (h.laminar.forall h.mem hedit hsame).1
            rcases h.slots edit hedit slot hpart with hslot | hslot
            · exact hseparate hslot
            · -- The edit around the slot is taken out, so there are fewer edits below.
              have hlt := length_filter_span_lt hedit
              exact separate_of_mem_expand (h.filter hne) (by omega) hslot piece hmem

/-- What a recorded edit contains and does not copy is not in the new text. -/
theorem separate_of_mem_pieces {changes : ChangeSet} {cover : Edit} {target : Span}
    (hlaminar : changes.Laminar) (htidy : Tidy changes.edits) (hmem : cover ∈ changes.edits)
    (hwhole : changes.source.whole.contains cover.span = true)
    (hnonempty : target.start < target.stop) (hcovers : cover.span.contains target = true)
    (hown : ∀ slot, .source slot ∈ cover.parts → slot.Separate target)
    (hslots : ∀ edit ∈ changes.edits, ∀ slot, .source slot ∈ edit.parts →
      slot.Separate target ∨ slot.contains cover.span = true) :
    ∀ piece, .source piece ∈ changes.pieces → piece.Separate target := by
  have hperm := List.mergeSort_perm changes.edits Edit.precedes
  refine separate_of_mem_expand ⟨hperm.mem_iff.mpr hmem, ?_, ?_, ?_, hnonempty, hcovers, hown, ?_⟩
    (Nat.le_of_eq hperm.length_eq) hwhole
  · exact ⟨fun edit hedit => htidy.forward edit (hperm.mem_iff.mp hedit),
      fun edit hedit => htidy.slots edit (hperm.mem_iff.mp hedit)⟩
  · exact Edit.sorted_mergeSort changes.edits
  · exact hlaminar.perm hperm.symm Compatible.symm
  · exact fun edit hedit => hslots edit (hperm.mem_iff.mp hedit)

end ChangeSet

end JestMigration
