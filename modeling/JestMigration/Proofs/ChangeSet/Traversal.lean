/-
# `Proofs.ChangeSet.Traversal` — slot by slot over the whole list of edits

Rendering takes an edit out of the list before it copies a slot of that edit, so
its lists get shorter.  `traverse` is the same copying without such help: every
slot goes over the whole list again, and nothing is passed over on purpose but
the edit that the slot belongs to (`owner?`).  Nothing in such a call is smaller
than in the one before.  A slot may be all of its edit, and without the owner it
would be entered for ever; so `traverse` is given a number of levels, and has no
result if they run out.

What ends it is the nesting of the recorded spans: an edit that is entered
inside a slot lies strictly inside the owner of the slot (`owner?_ne_of_contains`),
so an owner further out is never met again.  Hence one level for every edit is
enough, and the result is what rendering gives (`traverse_eq_expand`).

On the way every slice goes forward and ends in the source
(`forward_of_mem_expand`), whether edits and slots are empty or not.
-/
import JestMigration.Proofs.ChangeSet.Copying
import JestMigration.Proofs.Context.Requests
import JestMigration.Proofs.Scope.Declarations

namespace JestMigration

/-- An edit inside the source, with its slots inside the edit.  Edit and slots may be empty, and a
slot may be all of the edit. -/
structure Edit.Bounded (source : Source) (edit : Edit) : Prop where
  forward : edit.span.start ≤ edit.span.stop
  inside : edit.span.stop ≤ source.size
  slots : ∀ slot, .source slot ∈ edit.parts →
    slot.start ≤ slot.stop ∧ edit.span.contains slot = true

namespace ChangeSet

/-! ## The traversal -/

/-- The texts of an edit as they stand, and its slots as `copy` has them. -/
def fillSlots? (copy : Span → Option (List Part)) : List Part → Option (List Part)
  | [] => some []
  | .text value :: rest => (fillSlots? copy rest).map (.text value :: ·)
  | .source slot :: rest =>
    match copy slot, fillSlots? copy rest with
    | some pieces, some others => some (pieces ++ others)
    | _, _ => none

/-- Copies `span` from `place` on, going over all the edits that are left. -/
def traverseFrom (body : Edit → Option (List Part)) (owner? : Option Edit) (span : Span) :
    Nat → List Edit → Option (List Part)
  | place, [] => some [.source ⟨place, span.stop⟩]
  | place, edit :: rest =>
    if span.contains edit.span && decide (place ≤ edit.span.start) && owner? != some edit then
      match body edit, traverseFrom body owner? span edit.span.stop rest with
      | some pieces, some others => some (.source ⟨place, edit.span.start⟩ :: (pieces ++ others))
      | _, _ => none
    else
      traverseFrom body owner? span place rest

/-- Copies a span, which is a slot of `owner?` unless it is the whole source, with all the edits and
for every slot again with all of them.  None if there are slots below `depth` levels. -/
def traverse (edits : List Edit) :
    (depth : Nat) → (owner? : Option Edit) → Span → Option (List Part)
  | 0, _, _ => none
  | depth + 1, owner?, span =>
    traverseFrom (fun edit => fillSlots? (traverse edits depth (some edit)) edit.parts) owner? span
      span.start edits

theorem fillSlots?_eq {copy : Span → Option (List Part)} {fill : Part → List Part}
    (htext : ∀ value, fill (.text value) = [.text value]) :
    ∀ {parts : List Part}, (∀ slot, .source slot ∈ parts → copy slot = some (fill (.source slot))) →
      fillSlots? copy parts = some (parts.flatMap fill) := by
  intro parts
  induction parts with
  | nil =>
      intro _
      rfl
  | cons part rest ih =>
      intro hslots
      have hrest := ih fun slot hslot => hslots slot (List.mem_cons_of_mem _ hslot)
      cases part with
      | text value =>
          rw [fillSlots?, hrest, List.flatMap_cons, htext]
          rfl
      | source slot =>
          rw [fillSlots?, hslots slot List.mem_cons_self, hrest, List.flatMap_cons]

/-- Passing over the owner is sweeping over the other edits. -/
theorem traverseFrom_eq {body : Edit → Option (List Part)} {pieces : Edit → List Part}
    {owner? : Option Edit} {span : Span} {edits : List Edit} :
    ∀ {place : Nat}, (∀ edit ∈ edits, span.contains edit.span = true → owner? ≠ some edit →
        body edit = some (pieces edit)) →
      traverseFrom body owner? span place edits =
        some (sweep pieces span place (edits.filter fun edit => owner? != some edit)) := by
  induction edits with
  | nil =>
      intro place _
      rfl
  | cons edit rest ih =>
      intro place hbody
      have hrest : ∀ {place : Nat}, traverseFrom body owner? span place rest =
          some (sweep pieces span place (rest.filter fun edit => owner? != some edit)) :=
        ih fun other hother => hbody other (List.mem_cons_of_mem _ hother)
      rw [traverseFrom]
      by_cases howner : owner? = some edit
      · have hnot : (owner? != some edit) = false := by simpa using howner
        rw [hnot, Bool.and_false, if_neg Bool.false_ne_true,
          List.filter_cons_of_neg (by simpa using howner)]
        exact hrest
      · have hother : (owner? != some edit) = true := by simpa using howner
        rw [hother, Bool.and_true, List.filter_cons_of_pos (by simpa using howner), sweep]
        split
        · rename_i htaken
          rw [Bool.and_eq_true] at htaken
          rw [hbody edit List.mem_cons_self htaken.1 howner, hrest]
        · exact hrest

/-! ## Sweeps that come to the same -/

/-- Only edits inside the span count for a sweep. -/
theorem sweep_filter_congr {body : Edit → List Part} {span : Span} {p q : Edit → Bool}
    {edits : List Edit} : ∀ {place : Nat},
      (∀ edit ∈ edits, span.contains edit.span = true → p edit = q edit) →
      sweep body span place (edits.filter p) = sweep body span place (edits.filter q) := by
  induction edits with
  | nil =>
      intro place _
      rfl
  | cons edit rest ih =>
      intro place hsame
      have hrest : ∀ {place : Nat},
          sweep body span place (rest.filter p) = sweep body span place (rest.filter q) :=
        ih fun other hother => hsame other (List.mem_cons_of_mem _ hother)
      -- An edit outside the span is passed over, whether it is kept or not.
      have hout : ∀ {place : Nat} {keep : Edit → Bool}, span.contains edit.span = false →
          sweep body span place ((edit :: rest).filter keep) =
            sweep body span place (rest.filter keep) := by
        intro place keep hspan
        rw [List.filter_cons]
        split
        · rw [sweep, hspan, Bool.false_and, if_neg Bool.false_ne_true]
        · rfl
      cases hspan : span.contains edit.span with
      | false => rw [hout hspan, hout hspan, hrest]
      | true =>
          have hedit := hsame edit List.mem_cons_self hspan
          rw [List.filter_cons, List.filter_cons, hedit]
          split
          · rw [sweep, sweep, hrest, hrest]
          · exact hrest

theorem sweep_congr {body other : Edit → List Part} {span : Span} {edits : List Edit} :
    ∀ {place : Nat},
      (∀ edit ∈ edits, span.contains edit.span = true → body edit = other edit) →
      sweep body span place edits = sweep other span place edits := by
  induction edits with
  | nil =>
      intro place _
      rfl
  | cons edit rest ih =>
      intro place hsame
      have hrest : ∀ {place : Nat}, sweep body span place rest = sweep other span place rest :=
        ih fun other hother => hsame other (List.mem_cons_of_mem _ hother)
      rw [sweep, sweep, hrest, hrest]
      split
      · rename_i htaken
        rw [Bool.and_eq_true] at htaken
        rw [hsame edit List.mem_cons_self htaken.1]
      · rfl

/-- A level for every edit is enough: more of them change nothing. -/
theorem expand_eq_of_le {depth : Nat} : ∀ {edits : List Edit} {span : Span} {more : Nat},
    edits.length ≤ depth → depth ≤ more → expand more edits span = expand depth edits span := by
  induction depth with
  | zero =>
      intro edits span more hlength _
      rw [List.length_eq_zero_iff.mp (Nat.le_zero.mp hlength)]
      cases more with
      | zero => rfl
      | succ more => rfl
  | succ depth ih =>
      intro edits span more hlength hmore
      obtain ⟨more, rfl⟩ := Nat.exists_eq_add_one_of_ne_zero (Nat.ne_of_gt
        (Nat.lt_of_lt_of_le (Nat.succ_pos depth) hmore))
      rw [expand, expand]
      apply sweep_congr
      intro edit hedit _
      apply List.flatMap_congr
      intro part _
      cases part with
      | text value => rfl
      | source slot =>
          have hlt := length_filter_span_lt hedit
          exact ih (by omega) (by omega)

/-! ## The traversal is rendering -/

/-- An edit inside a slot is not the one further out that the slot's edit stands in: that would make
three spans one, and recorded spans differ. -/
theorem owner?_ne_of_contains {edits : List Edit} {owner? : Option Edit} {span slot : Span}
    {edit inner : Edit} (hlaminar : edits.Pairwise Compatible) (hedit : edit ∈ edits)
    (hinner : inner ∈ edits) (howner : ∀ owner ∈ owner?, owner.span.contains span = true)
    (hspan : span.contains edit.span = true) (hslot : edit.span.contains slot = true)
    (hcontains : slot.contains inner.span = true) (hne : inner ≠ edit) : owner? ≠ some inner := by
  intro hsame
  have haround := Span.contains_trans (howner inner hsame) hspan
  have hwithin := Span.contains_trans hslot hcontains
  exact (hlaminar.forall hinner hedit hne).1 (Span.contains_antisymm haround hwithin)

/-- Going over all edits for every slot gives what rendering gives.  Rendering is left with the edits
that are not further out (`keep`), and inside the span these are all but the owner. -/
theorem traverse_eq_expand {edits : List Edit} (hlaminar : edits.Pairwise Compatible)
    (hslots : ∀ edit ∈ edits, ∀ slot, .source slot ∈ edit.parts → edit.span.contains slot = true)
    {depth : Nat} : ∀ {keep : Edit → Bool} {owner? : Option Edit} {span : Span},
      (edits.filter keep).length ≤ depth → (∀ owner ∈ owner?, owner.span.contains span = true) →
      (∀ edit ∈ edits, span.contains edit.span = true → keep edit = (owner? != some edit)) →
      traverse edits (depth + 1) owner? span = some (expand depth (edits.filter keep) span) := by
  induction depth with
  | zero =>
      intro keep owner? span hlength howner hkeep
      have hnone := List.length_eq_zero_iff.mp (Nat.le_zero.mp hlength)
      have hbody : ∀ edit ∈ edits, span.contains edit.span = true → owner? ≠ some edit →
          fillSlots? (traverse edits 0 (some edit)) edit.parts = some [] := by
        intro edit hedit hspan hother
        have hkept : edit ∈ edits.filter keep :=
          List.mem_filter.mpr ⟨hedit, by rw [hkeep edit hedit hspan]; simpa using hother⟩
        rw [hnone] at hkept
        exact absurd hkept List.not_mem_nil
      rw [traverse, traverseFrom_eq hbody, ← sweep_filter_congr hkeep, hnone]
      rfl
  | succ depth ih =>
      intro keep owner? span hlength howner hkeep
      rw [traverse, expand]
      rw [sweep_filter_congr hkeep]
      apply traverseFrom_eq
      intro edit hedit hspan hother
      have hkept : edit ∈ edits.filter keep :=
        List.mem_filter.mpr ⟨hedit, by rw [hkeep edit hedit hspan]; simpa using hother⟩
      refine fillSlots?_eq (fun _ => rfl) ?_
      intro slot hslot
      have hin := hslots edit hedit slot hslot
      have hlt := length_filter_span_lt hkept
      rw [List.filter_filter] at hlt ⊢
      refine ih (by omega) ?_ ?_
      · intro owner hsame
        cases hsame
        exact hin
      · -- Inside the slot only the edit itself is missing, and no owner further out is met.
        intro inner hinner hcontains
        by_cases heq : inner = edit
        · subst heq
          rw [bne_self_eq_false, bne_self_eq_false, Bool.false_and]
        · have hne := owner?_ne_of_contains hlaminar hedit hinner howner hspan hin hcontains heq
          have hspans := (hlaminar.forall hinner hedit heq).1
          have hkept := hkeep inner hinner
            (Span.contains_trans hspan (Span.contains_trans hin hcontains))
          have hleft : (inner.span != edit.span) = true := by simpa using hspans
          have hmiddle : (owner? != some inner) = true := by simpa using hne
          have hright : (some edit != some inner) = true := by simpa using Ne.symm heq
          rw [hkept, hleft, hmiddle, hright]
          rfl

/-- With a level more than there are edits the traversal comes to its end. -/
theorem traverse_eq_pieces {changes : ChangeSet} (hlaminar : changes.Laminar)
    (hslots : ∀ edit ∈ changes.edits, ∀ slot, .source slot ∈ edit.parts →
      edit.span.contains slot = true) {depth : Nat} (hdepth : changes.size < depth) :
    traverse (changes.edits.mergeSort Edit.precedes) depth none changes.source.whole =
      some changes.pieces := by
  have hperm := List.mergeSort_perm changes.edits Edit.precedes
  obtain ⟨depth, rfl⟩ := Nat.exists_eq_add_one_of_ne_zero (Nat.ne_of_gt
    (Nat.lt_of_le_of_lt (Nat.zero_le _) hdepth))
  have hsize : (changes.edits.mergeSort Edit.precedes).length ≤ changes.size :=
    Nat.le_of_eq hperm.length_eq
  have hall : (changes.edits.mergeSort Edit.precedes).filter (fun _ => true) =
      changes.edits.mergeSort Edit.precedes :=
    List.filter_true _
  have hlength : ((changes.edits.mergeSort Edit.precedes).filter fun _ => true).length ≤ depth := by
    rw [hall]
    omega
  have hend : traverse (changes.edits.mergeSort Edit.precedes) (depth + 1) none
      changes.source.whole = some (expand depth
        ((changes.edits.mergeSort Edit.precedes).filter fun _ => true) changes.source.whole) :=
    traverse_eq_expand (hlaminar.perm hperm.symm Compatible.symm)
      (fun edit hedit => hslots edit (hperm.mem_iff.mp hedit)) hlength
      (fun owner howner => absurd howner (by simp)) (fun _ _ _ => rfl)
  rw [hend, hall, pieces, expand_eq_of_le hsize (by omega)]

/-! ## Slices -/

/-- Sweeping over edits that go forward takes slices that go forward. -/
theorem forward_of_mem_sweep {body : Edit → List Part} {span piece : Span} {edits : List Edit} :
    ∀ {place : Nat}, place ≤ span.stop →
      (∀ edit ∈ edits, .source piece ∈ body edit → piece.start ≤ piece.stop) →
      .source piece ∈ sweep body span place edits → piece.start ≤ piece.stop := by
  induction edits with
  | nil =>
      intro place hplace _ hpiece
      have hlast : piece = ⟨place, span.stop⟩ := by simpa [sweep] using hpiece
      rw [hlast]
      exact hplace
  | cons edit rest ih =>
      intro place hplace hbody hpiece
      have hbodies := fun other hother => hbody other (List.mem_cons_of_mem _ hother)
      rw [sweep] at hpiece
      split at hpiece
      · rename_i htaken
        simp only [Bool.and_eq_true, decide_eq_true_eq] at htaken
        rcases List.mem_cons.mp hpiece with hgap | hpiece
        · rw [Part.source.injEq] at hgap
          rw [hgap]
          exact htaken.2
        · rcases List.mem_append.mp hpiece with hpiece | hpiece
          · exact hbody edit List.mem_cons_self hpiece
          · exact ih (Span.contains_iff.mp htaken.1).2 hbodies hpiece
      · exact ih hplace hbodies hpiece

/-- Copying a span takes slices that go forward, if the slots do. -/
theorem forward_of_mem_expand {piece : Span} {depth : Nat} :
    ∀ {edits : List Edit} {span : Span}, span.start ≤ span.stop →
      (∀ edit ∈ edits, ∀ slot, .source slot ∈ edit.parts → slot.start ≤ slot.stop) →
      .source piece ∈ expand depth edits span → piece.start ≤ piece.stop := by
  induction depth with
  | zero =>
      intro edits span hspan _ hpiece
      have hall : piece = span := by simpa [expand] using hpiece
      rw [hall]
      exact hspan
  | succ depth ih =>
      intro edits span hspan hslots hpiece
      rw [expand] at hpiece
      refine forward_of_mem_sweep hspan ?_ hpiece
      intro edit hedit hpiece
      obtain ⟨part, hpart, hmem⟩ := List.mem_flatMap.mp hpiece
      cases part with
      | text value => simp at hmem
      | source slot =>
          exact ih (hslots edit hedit slot hpart)
            (fun other hother => hslots other (List.mem_filter.mp hother).1) hmem

theorem bounds_of_mem_pieces {changes : ChangeSet} {piece : Span}
    (h : ∀ edit ∈ changes.edits, edit.Bounded changes.source)
    (hpiece : .source piece ∈ changes.pieces) :
    piece.start ≤ piece.stop ∧ piece.stop ≤ changes.source.size := by
  have hsorted : ∀ edit ∈ changes.edits.mergeSort Edit.precedes, edit.Bounded changes.source :=
    fun edit hedit => h edit (List.mem_mergeSort.mp hedit)
  constructor
  · exact forward_of_mem_expand (Nat.zero_le _)
      (fun edit hedit slot hslot => ((hsorted edit hedit).slots slot hslot).1) hpiece
  · have htidy : Tidy (changes.edits.mergeSort Edit.precedes) :=
      ⟨fun edit hedit => (hsorted edit hedit).forward,
        fun edit hedit slot hslot => ((hsorted edit hedit).slots slot hslot).2⟩
    exact (Span.contains_iff.mp (contains_of_mem_expand htidy piece hpiece)).2

end ChangeSet

/-- The templates that calls of context methods are written with keep their slots inside. -/
theorem Assertion.bounded_template {source : Source} {tree : Tree} {assertion : Assertion}
    {completion : String} {span : Span} {parts : List Part} (hnest : tree.WellNested source)
    (hread : tree.Readable source) (hcall : Node.Within (Node.root tree) assertion.call)
    (htemplate : assertion.change completion = .template span parts) :
    (Edit.template span parts).Bounded source := by
  have hbounds : ∀ {node : Node}, Node.Within (Node.root tree) node →
      node.span.start ≤ node.span.stop ∧ node.span.stop ≤ source.size := by
    intro node hnode
    obtain ⟨hle, _, hstop⟩ :=
      Source.isSome_slice?_iff.mp (hread node (Node.mem_nodes_of_within hnode))
    exact ⟨hle, Source.le_size_of_isBoundary hstop⟩
  obtain ⟨rfl, hslots⟩ := slots_of_template htemplate
  refine ⟨(hbounds hcall).1, (hbounds hcall).2, ?_⟩
  intro slot hslot
  obtain ⟨argument, hargument, rfl⟩ := hslots slot (Part.source_mem_of_mem_merge hslot)
  obtain ⟨list, hlist, hmem⟩ := exists_list_of_mem_arguments hargument
  have hin : Node.Within assertion.call argument := (Node.within_of_child? hlist).child hmem
  exact ⟨(hbounds (hcall.trans hin)).1, hnest.contains hcall hin⟩

namespace ChangeSet

/-! ## Any sequence of pushes -/

/-- Whatever was pushed, rendering comes to its end: with all edits gone over again for every slot,
no more levels are needed than there are edits, and the one for the source itself.  Every slice that
is taken goes forward and ends in the source, and if edits and slots end between characters, every
slice has a text.  What is asked of the edits is true of all templates for calls of context methods. -/
theorem traversal_ends (source : Source) (asked : List Edit)
    (h : ∀ edit ∈ asked, edit.Bounded source) :
    (∀ depth, (pushed source asked).size < depth →
      traverse ((pushed source asked).edits.mergeSort Edit.precedes) depth none source.whole =
        some (pushed source asked).pieces) ∧
    (∀ piece, .source piece ∈ (pushed source asked).pieces →
      piece.start ≤ piece.stop ∧ piece.stop ≤ source.size) ∧
    ((∀ edit ∈ asked, edit.Readable source) →
      ∀ piece, .source piece ∈ (pushed source asked).pieces → (source.slice? piece).isSome) ∧
    ∀ (tree : Tree) (assertion : Assertion) (completion : String) (span : Span) (parts : List Part),
      tree.WellNested source → tree.Readable source →
      Node.Within (Node.root tree) assertion.call →
      assertion.change completion = .template span parts →
      (Edit.template span parts).Bounded source := by
  obtain ⟨hsource, hasked⟩ := mem_of_mem_pushed source asked
  have hbounded : ∀ edit ∈ (pushed source asked).edits,
      edit.Bounded (pushed source asked).source := by
    intro edit hedit
    rw [hsource]
    exact h edit (hasked edit hedit)
  refine ⟨?_, ?_, ?_, ?_⟩
  · intro depth hdepth
    have hend := traverse_eq_pieces (laminar_performAll source (asked.map .push))
      (fun edit hedit slot hslot => ((hbounded edit hedit).slots slot hslot).2) hdepth
    rw [show (performAll { source } (asked.map .push)).source = source from hsource] at hend
    exact hend
  · intro piece hpiece
    have hpiece := bounds_of_mem_pieces hbounded hpiece
    rw [hsource] at hpiece
    exact hpiece
  · intro hreadable piece hpiece
    rw [pieces, hsource] at hpiece
    exact isSome_slice?_of_mem_expand
      (fun edit hedit => hreadable edit (hasked edit (List.mem_mergeSort.mp hedit)))
      source.isSome_slice?_whole hpiece
  · intro tree assertion completion span parts hnest hread hcall htemplate
    exact Assertion.bounded_template hnest hread hcall htemplate

end ChangeSet

namespace Sample

/-- A call with two arguments. -/
def call : Source := ⟨"f(a, b);"⟩

/-- The call with something before it, which leaves one slot as wide as the edit; something put in
front of an argument, where no byte is replaced; and the argument replaced. -/
def wrapping : List Edit :=
  [⟨⟨0, 7⟩, [.text "await ", .source ⟨0, 7⟩]⟩, ⟨⟨5, 5⟩, [.text "a + "]⟩, .replace ⟨2, 3⟩ "x"]

end Sample

namespace ChangeSet

/-- A slot that is all of its edit is entered once, with the other two edits in it. -/
theorem traversal_ends_wrapping :
    (pushed Sample.call Sample.wrapping).edits = Sample.wrapping ∧
    traverse (Sample.wrapping.mergeSort Edit.precedes) 4 none Sample.call.whole =
      some (pushed Sample.call Sample.wrapping).pieces ∧
    ∀ piece, .source piece ∈ (pushed Sample.call Sample.wrapping).pieces →
      piece.start ≤ piece.stop ∧ piece.stop ≤ Sample.call.size := by
  have hbounded : ∀ edit ∈ Sample.wrapping, edit.Bounded Sample.call := by
    intro edit hedit
    simp only [Sample.wrapping, List.mem_cons, List.not_mem_nil, or_false] at hedit
    rcases hedit with rfl | rfl | rfl
    · refine ⟨by decide, by decide, ?_⟩
      intro slot hslot
      have hslot : slot = ⟨0, 7⟩ := by simpa using hslot
      subst hslot
      decide
    all_goals exact ⟨by decide, by decide, by simp [Edit.replace]⟩
  have hedits : (pushed Sample.call Sample.wrapping).edits = Sample.wrapping := by decide
  obtain ⟨hend, hpieces, _⟩ := traversal_ends Sample.call Sample.wrapping hbounded
  refine ⟨hedits, ?_, hpieces⟩
  rw [← hend 4 (by rw [size, hedits]; decide), hedits]

end ChangeSet

end JestMigration
