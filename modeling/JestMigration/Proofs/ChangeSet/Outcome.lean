/-
# `Proofs.ChangeSet.Outcome` — what rendering comes to

Rendering recorded edits has a text, or it has none because a span would have to
be copied that begins or ends inside a character (`render?`).  Which of the two
it is, and which text, is read off the layout of the edits
(`render?_eq_readAll?_layout`), and so is the same for every way to record them:

* after any sequence of pushes, accepted or refused, the outcome is that of the
  layout of what was recorded (`render_pushed`);
* edits that are disjoint or nested are accepted in any order (`foldlM_push`),
  and the outcome is one for all orders (`render_in_any_order`).

Nothing that `push` looks at keeps an edit from splitting a character.  Such
edits are accepted, and then there is no text (`render_pushed_halves`,
`render_in_any_order_halves`); between characters there always is one.
-/
import JestMigration.Proofs.ChangeSet.Order
import JestMigration.Proofs.ChangeSet.Traversal

namespace JestMigration

namespace ChangeSet

/-! ## The outcome and the layout -/

theorem render?_eq_readAll?_layout {changes : ChangeSet} (h : Nestable changes.edits) :
    changes.render? =
      Part.readAll? changes.source (layout changes.edits changes.source.whole) := by
  rw [render?, pieces_eq_layout h]

/-- Going over all edits again for every slot comes to the layout. -/
theorem traverse_eq_layout {changes : ChangeSet} (h : Nestable changes.edits) :
    traverse (changes.edits.mergeSort Edit.precedes) (changes.size + 1) none changes.source.whole =
      some (layout changes.edits changes.source.whole) := by
  rw [← pieces_eq_layout h]
  exact traverse_eq_pieces h.laminar h.slots (Nat.lt_succ_self _)

/-- A piece without a text leaves the whole without one. -/
theorem render?_eq_none {changes : ChangeSet} {piece : Span}
    (hpiece : .source piece ∈ changes.pieces)
    (hslice : (changes.source.slice? piece).isSome = false) : changes.render? = none := by
  rw [Option.eq_none_iff_forall_ne_some]
  intro text htext
  rw [(render?_eq_some_iff.mp htext).1 piece hpiece] at hslice
  exact absurd hslice (by simp)

/-! ## Any sequence of pushes -/

/-- Rendering is laying out the whole source with all the edits, and so is going over all of them
again for every slot.  If there is a text, it consists of the bytes of the source between outermost
edits and of what takes the place of these, and there is one if all edits and slots begin and end
between characters.  In any span that is laid out, with any of the edits, an edit inside an outermost
one but in none of its slots leaves no trace, and an outermost one is put in once; and bytes in no
edit are copied once, in order. -/
theorem render_pushed (source : Source) (asked : List Edit)
    (h : ∀ edit ∈ asked, edit.Fits source) :
    (pushed source asked).render? =
      Part.readAll? source (layout (pushed source asked).edits source.whole) ∧
    traverse ((pushed source asked).edits.mergeSort Edit.precedes)
        ((pushed source asked).size + 1) none source.whole =
      some (layout (pushed source asked).edits source.whole) ∧
    (∀ text, (pushed source asked).render? = some text →
      (Source.mk text).bytes =
        (layout (pushed source asked).edits source.whole).flatMap (Part.contents source)) ∧
    ((∀ edit ∈ asked, edit.Readable source) → ∃ text, (pushed source asked).render? = some text) ∧
    (∀ inner, inner.Sublist (pushed source asked).edits → ∀ span,
      (∀ outer ∈ outermost inner span, ∀ hidden ∈ inner,
        outer.span.contains hidden.span = true → hidden ≠ outer →
        (∀ slot, .source slot ∈ outer.parts → slot.contains hidden.span = false) →
        layout (inner.filter (· ≠ hidden)) span = layout inner span) ∧
      ∀ edit ∈ inner, Outermost inner span edit →
        ∃ before after, outermost inner span = before ++ edit :: after ∧ edit ∉ before ++ after ∧
          layout inner span = fill edit.span.start span.start (patches inner before) ++
            replacement inner edit ++ fill span.stop edit.span.stop (patches inner after)) ∧
    ((layout (pushed source asked).edits source.whole).flatMap Part.offsets).filter
        (outside (pushed source asked).edits) =
      (List.range source.size).filter (outside (pushed source asked).edits) := by
  have hnestable := nestable_pushed h
  obtain ⟨hsource, hasked⟩ := mem_of_mem_pushed source asked
  have hrender := render?_eq_readAll?_layout hnestable
  have htraverse := traverse_eq_layout hnestable
  rw [hsource] at hrender htraverse
  refine ⟨hrender, htraverse, ?_, ?_, ?_, ?_⟩
  · intro text htext
    exact Part.bytes_of_readAll? (hrender.symm.trans htext)
  · intro hreadable
    refine ⟨_, render?_of_readable ?_⟩
    intro edit hedit
    rw [hsource]
    exact hreadable edit (hasked edit hedit)
  · intro inner hinner span
    have hinner := hnestable.sublist hinner
    exact ⟨fun outer houter hidden hhidden => layout_hidden hinner houter hhidden,
      fun edit => layout_once hinner⟩
  · rw [filter_offsets_layout hnestable (Nat.zero_le _), List.range_eq_range']
    rfl

end ChangeSet

namespace Sample

/-- The whole call, its first argument, its second one, and what overlaps the call partially. -/
def asked : List Edit :=
  [⟨⟨0, 7⟩, [.text "g(", .source ⟨2, 3⟩, .text ")"]⟩, .replace ⟨2, 3⟩ "x", .replace ⟨5, 6⟩ "y",
    .delete ⟨5, 8⟩]

/-- A character of two bytes. -/
def accented : Source := ⟨"é"⟩

/-- The character put together again from its two bytes. -/
def halves : Edit := ⟨⟨0, 2⟩, [.source ⟨0, 1⟩, .source ⟨1, 2⟩]⟩

end Sample

namespace ChangeSet

theorem fits_asked : ∀ edit ∈ Sample.asked,
    edit.Fits Sample.call ∧ edit.Readable Sample.call := by
  intro edit hedit
  simp only [Sample.asked, List.mem_cons, List.not_mem_nil, or_false] at hedit
  rcases hedit with rfl | rfl | rfl | rfl
  · refine ⟨⟨by decide, by decide, ?_⟩, Source.isSome_slice?_iff.mpr (by decide), ?_⟩
    all_goals
      intro slot hslot
      have hslot : slot = ⟨2, 3⟩ := by simpa using hslot
      subst hslot
    · decide
    · exact Source.isSome_slice?_iff.mpr (by decide)
  all_goals
    exact ⟨⟨by decide, by decide, by simp [Edit.replace, Edit.delete]⟩,
      Source.isSome_slice?_iff.mpr (by decide), by simp [Edit.replace, Edit.delete]⟩

/-- The second argument is in no slot of the call, so its edit leaves no trace. -/
theorem render_pushed_sample :
    (pushed Sample.call Sample.asked).edits = Sample.asked.take 3 ∧
    (∃ text, (pushed Sample.call Sample.asked).render? = some text ∧
      (Source.mk text).bytes =
        (layout (pushed Sample.call Sample.asked).edits Sample.call.whole).flatMap
          (Part.contents Sample.call)) ∧
    layout ((pushed Sample.call Sample.asked).edits.filter (· ≠ .replace ⟨5, 6⟩ "y"))
      Sample.call.whole = layout (pushed Sample.call Sample.asked).edits Sample.call.whole := by
  have hedits : (pushed Sample.call Sample.asked).edits = Sample.asked.take 3 := by decide
  obtain ⟨_, _, hbytes, htext, hinner, _⟩ :=
    render_pushed Sample.call Sample.asked fun edit hedit => (fits_asked edit hedit).1
  obtain ⟨text, htext⟩ := htext fun edit hedit => (fits_asked edit hedit).2
  refine ⟨hedits, ⟨text, htext, hbytes text htext⟩, ?_⟩
  have houter : Sample.asked.head (by decide) ∈
      outermost (pushed Sample.call Sample.asked).edits Sample.call.whole := by
    rw [mem_outermost, hedits]
    decide
  refine (hinner _ (List.Sublist.refl _) _).1 _ houter _ ?_ (by decide) (by decide) ?_
  · rw [hedits]
    decide
  · intro slot hslot
    have hslot : slot = ⟨2, 3⟩ := by simpa [Sample.asked] using hslot
    subst hslot
    decide

theorem fits_halves {text : String} (hsize : 2 ≤ (Source.mk text).size) :
    Sample.halves.Fits ⟨text⟩ := by
  refine ⟨by decide, hsize, ?_⟩
  intro slot hslot
  have hslot : slot = ⟨0, 1⟩ ∨ slot = ⟨1, 2⟩ := by simpa [Sample.halves] using hslot
  rcases hslot with rfl | rfl <;> decide

/-- Between the bytes of a character nothing is copied.  An edit of the second byte is accepted, and
so is one of the whole character with its bytes as slots, where the bytes laid out are those of a
text; both have no text. -/
theorem render_pushed_halves :
    ((Edit.replace ⟨1, 2⟩ "x").Fits Sample.accented ∧
      (pushed Sample.accented [.replace ⟨1, 2⟩ "x"]).edits = [.replace ⟨1, 2⟩ "x"] ∧
      (pushed Sample.accented [.replace ⟨1, 2⟩ "x"]).render? = none) ∧
    Sample.halves.Fits Sample.accented ∧
      (pushed Sample.accented [Sample.halves]).edits = [Sample.halves] ∧
      (layout (pushed Sample.accented [Sample.halves]).edits Sample.accented.whole).flatMap
        (Part.contents Sample.accented) = Sample.accented.bytes ∧
      (pushed Sample.accented [Sample.halves]).render? = none := by
  have hfits : Sample.halves.Fits Sample.accented := fits_halves (by decide)
  have hnestable : Nestable (pushed Sample.accented [Sample.halves]).edits :=
    nestable_pushed (by simpa using hfits)
  refine ⟨⟨⟨by decide, by decide, by simp [Edit.replace]⟩, by decide, ?_⟩, hfits, by decide, ?_, ?_⟩
  · have hpiece : Part.source ⟨0, 1⟩ ∈
        (pushed Sample.accented [.replace ⟨1, 2⟩ "x"]).pieces := by decide +kernel
    exact render?_eq_none hpiece (by decide)
  · have hpieces := pieces_eq_layout hnestable
    rw [(mem_of_mem_pushed Sample.accented [Sample.halves]).1] at hpieces
    rw [← hpieces]
    decide +kernel
  · have hpiece : Part.source ⟨0, 1⟩ ∈ (pushed Sample.accented [Sample.halves]).pieces := by
      decide +kernel
    exact render?_eq_none hpiece (by decide)

/-! ## Any order of recording -/

/-- Edits that are compatible with all that came before are accepted one after the other. -/
theorem foldlM_push {asked : List Edit} : ∀ {changes : ChangeSet},
    (changes.edits ++ asked).Pairwise Compatible →
      asked.foldlM push changes = .ok { changes with edits := changes.edits ++ asked } := by
  induction asked with
  | nil =>
      intro changes _
      rw [List.append_nil]
      rfl
  | cons edit rest ih =>
      intro changes hpairs
      have hnew : ∀ old ∈ changes.edits,
          old.span ≠ edit.span ∧ old.span.overlaps edit.span = false := by
        intro old hold
        exact (List.pairwise_append.mp hpairs).2.2 old hold edit List.mem_cons_self
      rw [List.append_cons] at hpairs
      rw [List.foldlM_cons, push_eq_append_iff.mpr hnew, List.append_cons _ _ rest]
      exact @ih { changes with edits := changes.edits ++ [edit] } hpairs

/-- Edits of some bytes of the source each, no two with the same span and any two disjoint or nested,
are all accepted in any order of recording, and the order leaves no trace.  Going over all of them
for every slot comes to the one layout that they have, and rendering has the outcome of reading this
layout off the source.  If edits and slots begin and end between characters, that is one text for
all orders. -/
theorem render_in_any_order (source : Source) (asked recorded : List Edit)
    (hfits : ∀ edit ∈ asked, edit.Fits source)
    (hpairs : asked.Pairwise fun a b => a.span ≠ b.span ∧
      (a.span.Separate b.span ∨ a.span.contains b.span = true ∨ b.span.contains a.span = true))
    (hperm : recorded.Perm asked) :
    recorded.foldlM push { source } = .ok { source, edits := recorded } ∧
    traverse (recorded.mergeSort Edit.precedes) (recorded.length + 1) none source.whole =
      some (layout asked source.whole) ∧
    render? { source, edits := recorded } = render? { source, edits := asked } ∧
    render? { source, edits := recorded } = Part.readAll? source (layout asked source.whole) ∧
    ((∀ edit ∈ asked, edit.Readable source) →
      ∃ text, render? { source, edits := asked } = some text ∧
        render? { source, edits := recorded } = some text) := by
  have hcompatible : asked.Pairwise Compatible := by
    refine hpairs.imp ?_
    intro a b hab
    refine ⟨hab.1, Span.overlaps_eq_false ?_⟩
    rcases hab.2 with (hbefore | hafter) | hnested
    · exact .inl hbefore
    · exact .inr (.inl hafter)
    · exact .inr (.inr hnested)
  have hnestable : Nestable asked :=
    ⟨hcompatible, fun edit hedit => (hfits edit hedit).nonempty,
      fun edit hedit slot hslot => ((hfits edit hedit).slots slot hslot).2⟩
  have hlaminar : Laminar { source, edits := recorded } :=
    hcompatible.perm hperm.symm Compatible.symm
  have hpieces : pieces { source, edits := recorded } = pieces { source, edits := asked } :=
    pieces_of_perm rfl hlaminar hperm
  have hsame : render? { source, edits := recorded } = render? { source, edits := asked } :=
    congrArg (Part.readAll? source) hpieces
  have hlayout : pieces { source, edits := asked } = layout asked source.whole :=
    pieces_eq_layout hnestable
  refine ⟨foldlM_push hlaminar, ?_, hsame, ?_, ?_⟩
  · rw [← hlayout, ← hpieces]
    refine traverse_eq_pieces hlaminar ?_ (Nat.lt_succ_self _)
    intro edit hedit slot hslot
    exact hnestable.slots edit (hperm.mem_iff.mp hedit) slot hslot
  · rw [hsame]
    exact render?_eq_readAll?_layout hnestable
  · intro hreadable
    have htext : render? { source, edits := asked } = some (render { source, edits := asked }) :=
      render?_of_readable hreadable
    exact ⟨_, htext, hsame.trans htext⟩

/-- Arguments before the call around them, and the call before its arguments. -/
theorem render_in_any_order_inner_first :
    (Sample.asked.take 3).reverse.foldlM push { source := Sample.call } =
      .ok { source := Sample.call, edits := (Sample.asked.take 3).reverse } ∧
    ∃ text, render? { source := Sample.call, edits := Sample.asked.take 3 } = some text ∧
      render? { source := Sample.call, edits := (Sample.asked.take 3).reverse } = some text := by
  have horder := render_in_any_order Sample.call (Sample.asked.take 3) (Sample.asked.take 3).reverse
    (fun edit hedit => (fits_asked edit (List.mem_of_mem_take hedit)).1) (by decide)
    (List.reverse_perm _)
  exact ⟨horder.1,
    horder.2.2.2.2 fun edit hedit => (fits_asked edit (List.mem_of_mem_take hedit)).2⟩

end ChangeSet

namespace Sample

/-- The character with a letter behind it. -/
def word : Source := ⟨"éa"⟩

/-- The letter replaced, and the character put together from its bytes. -/
def respelled : List Edit := [halves, .replace ⟨2, 3⟩ "b"]

end Sample

namespace ChangeSet

/-- Disjoint edits are accepted in both orders, and in neither is there a text. -/
theorem render_in_any_order_halves :
    (Sample.halves.Fits Sample.word ∧ (Edit.replace ⟨2, 3⟩ "b").Fits Sample.word) ∧
    Sample.respelled.foldlM push { source := Sample.word } =
      .ok { source := Sample.word, edits := Sample.respelled } ∧
    Sample.respelled.reverse.foldlM push { source := Sample.word } =
      .ok { source := Sample.word, edits := Sample.respelled.reverse } ∧
    render? { source := Sample.word, edits := Sample.respelled } = none ∧
    render? { source := Sample.word, edits := Sample.respelled.reverse } = none := by
  have hlaminar : Laminar { source := Sample.word, edits := Sample.respelled } := by
    unfold Laminar Compatible
    decide
  have hsorted : Sample.respelled.mergeSort Edit.precedes = Sample.respelled :=
    List.mergeSort_of_pairwise (by decide)
  have hpiece : Part.source ⟨0, 1⟩ ∈
      pieces { source := Sample.word, edits := Sample.respelled } := by
    rw [pieces, hsorted]
    decide
  refine ⟨⟨fits_halves (by decide), by decide, by decide, by simp [Edit.replace]⟩, ?_, ?_, ?_, ?_⟩
  · exact foldlM_push hlaminar
  · exact foldlM_push (hlaminar.perm (List.reverse_perm _).symm Compatible.symm)
  · exact render?_eq_none hpiece (by decide)
  · have hpieces : pieces { source := Sample.word, edits := Sample.respelled } =
        pieces { source := Sample.word, edits := Sample.respelled.reverse } :=
      pieces_of_perm rfl hlaminar (List.reverse_perm _).symm
    rw [hpieces] at hpiece
    exact render?_eq_none hpiece (by decide)

end ChangeSet

end JestMigration
