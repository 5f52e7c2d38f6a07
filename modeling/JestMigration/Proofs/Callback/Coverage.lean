/-
# `Proofs.Callback.Coverage` — a reference that is replaced does not come back

An edit may take in a reference and still copy it, in a slot.  The slots of a
callback's edits are arguments of calls (`ArgumentSlot`), and around a reference
that asks for a change an argument is either nowhere near or around the whole
change (`ArgumentSlot.separate_or_around`).  So the edit recorded for the change
does not copy the reference, whatever asked for it first (`covered_of_request`),
and neither does any other edit around it: nothing of the reference is in the
new text.
-/
import JestMigration.Proofs.Callback.Extent
import JestMigration.Proofs.ChangeSet.Rendering

namespace JestMigration

open Node

/-! ## Mentions of a name -/

/-- The node is a name with a text. -/
structure Mention (source : Source) (tree : Tree) (node : Node) : Prop where
  within : Within (root tree) node
  isName : node.kind.isName = true
  spelled : node.text source ≠ ""

namespace Mention

variable {source : Source} {tree : Tree} {node below : Node}

theorem start_lt_stop (h : Mention source tree node) : node.span.start < node.span.stop :=
  Source.start_lt_stop_of_read_ne h.spelled

theorem slice?_eq (h : Mention source tree node) :
    source.slice? node.span = some (node.text source) :=
  Source.slice?_of_read_ne h.spelled

theorem isWord (h : Mention source tree node) (hlex : tree.Lexical source) :
    source.isWord node.span = true :=
  hlex.word node (mem_nodes_of_within h.within) h.isName

/-- There is nothing below a name. -/
theorem eq_of_within (h : Mention source tree node) (hleaf : tree.LeafNames)
    (hbelow : Within node below) : below = node := by
  rcases hbelow.head with heq | ⟨child, hmem, _⟩
  · exact heq
  · rw [hleaf node (mem_nodes_of_within h.within) h.isName] at hmem
    exact absurd hmem List.not_mem_nil

/-- The references of a declared name mention it. -/
theorem of_mem_references {top name reference : Node} {binding : BindingId}
    (htop : Within (root tree) top) (hname : Within (root tree) name)
    (hdeclared : (ScopeTable.build source tree).declaredAt? name = some binding)
    (h : reference ∈ (ScopeTable.build source tree).references source top binding) :
    Mention source tree reference ∧ Within top reference := by
  obtain ⟨_, _, hin, hkind, _⟩ := ScopeTable.mem_references_iff.mp h
  obtain ⟨htext, hne⟩ :=
    (ScopeTable.sound_build source tree).text_of_mem_references hname hdeclared h
  refine ⟨⟨htop.trans hin, ?_, htext ▸ hne⟩, hin⟩
  rcases hkind with hkind | hkind <;> simp [hkind, Kind.isName]

end Mention

/-- A declared name is not empty, so neither is a node that holds it. -/
theorem start_lt_stop_of_declaredAt? {source : Source} {tree : Tree} {node name : Node}
    {binding : BindingId} (hnest : tree.WellNested source) (hnode : Within (root tree) node)
    (hbelow : Within node name)
    (hdeclared : (ScopeTable.build source tree).declaredAt? name = some binding) :
    node.span.start < node.span.stop := by
  obtain ⟨_, _, hne, _⟩ :=
    (ScopeTable.sound_build source tree).declared (hnode.trans hbelow) hdeclared
  have hspan := hnest.span_le hnode hbelow
  have hlt := Source.start_lt_stop_of_read_ne hne
  omega

/-! ## Slots -/

/-- The edit rewrites a call because of a reference, and the slot is one of the arguments. -/
inductive ArgumentSlot (source : Source) (tree : Tree) (edit : Edit) : Span → Prop
  | intro {reference callee call list argument : Node} : Mention source tree reference →
      Head reference callee → callee.callOf? = some call → edit.span = call.span →
      call.child? .arguments = some list → list.kind = .arguments → argument ∈ list.children →
      ArgumentSlot source tree edit argument.span

/-- The slots of an edit that is asked for because of a reference. -/
theorem Request.argumentSlot {source : Source} {tree : Tree} {reference : Node} {change : Change}
    {edit : Edit} {slot : Span} (h : Request reference change)
    (hmention : Mention source tree reference) (hedit : change.edit? source = some edit)
    (hslot : .source slot ∈ edit.parts) : ArgumentSlot source tree edit slot := by
  cases h with
  | replace =>
      rw [Change.eq_of_edit?_replace hedit] at hslot
      exact absurd hslot (by simp [Edit.replace])
  | template hcallee hcall hslots =>
      cases hedit
      obtain ⟨arguments, argument, harguments, hmem, rfl⟩ :=
        hslots slot (Part.source_mem_of_mem_merge hslot)
      obtain ⟨list, hlist, hkind, rfl⟩ := arguments?_eq_some harguments
      exact .intro hmention hcallee hcall rfl hlist hkind
        (mem_children_of_mem_namedChildren hmem)
  | remove =>
      rw [Edit.eq_of_delete? hedit] at hslot
      exact absurd hslot (by simp [Edit.delete])

namespace ArgumentSlot

variable {source : Source} {tree : Tree} {edit : Edit} {slot : Span}

/-- Slots stay inside their edit and do not hold all of it. -/
theorem bounds (hnest : tree.WellNested source) (h : ArgumentSlot source tree edit slot) :
    edit.span.contains slot = true ∧ slot.contains edit.span = false := by
  obtain ⟨hmention, hcallee, hcall, hspan, hlist, _, hmem⟩ := h
  obtain ⟨htop, hbelow⟩ := hcallee.within hmention.within
  obtain ⟨_, hfunction, _, hwithin⟩ := headOf?_eq_some htop hcall
  have hincallee := hnest.span_le htop hbelow
  have hlt := hmention.start_lt_stop
  rw [hspan]
  exact hnest.argument_bounds hwithin hfunction (by omega) hlist hmem

/-- A slot is a node of the tree, and ends between characters if all nodes do. -/
theorem isSome_slice? (h : ArgumentSlot source tree edit slot) (hread : tree.Readable source) :
    (source.slice? slot).isSome := by
  obtain ⟨hmention, hcallee, hcall, _, hlist, _, hmem⟩ := h
  obtain ⟨_, _, _, hwithin⟩ := headOf?_eq_some (hcallee.within hmention.within).1 hcall
  exact hread _ (mem_nodes_of_within ((hwithin.trans (within_of_child? hlist)).child hmem))

end ArgumentSlot

/-! ## Arguments around a reference -/

section

variable {source : Source} {tree : Tree} {reference node list argument : Node}

/-- An argument is no step on the way from a reference to what begins with it, so it is around both
or below both. -/
theorem Head.within_argument (h : Head reference node) (hmention : Mention source tree reference)
    (hlist : Within (root tree) list) (hkind : list.kind = .arguments)
    (hmem : argument ∈ list.children) (hin : Within argument reference) : Within argument node := by
  obtain ⟨htop, hbelow⟩ := h.within hmention.within
  rcases (hlist.child hmem).total htop hin hbelow with hover | hunder
  · exact hover
  · rcases hunder.of_child hmem with rfl | hunder
    · exact .self
    · have hdown := (Within.of_mem_children hmem).trans hin
      rcases h.between hmention.within hunder hdown with rfl | hmid | hmid
      · have hname := hmention.isName
        simp [hkind, Kind.isName] at hname
      · simp [hkind] at hmid
      · simp [hkind] at hmid

/-- An argument around a child of a node that is no argument list is around the node. -/
theorem within_argument_of_child {child parent : Node} (hkind : list.kind = .arguments)
    (hmem : argument ∈ list.children) (hchild : child ∈ parent.children)
    (hparent : parent.kind ≠ .arguments) (hin : Within argument child) : Within argument parent := by
  rcases hin.of_child hchild with rfl | hin
  · have hsame := parent?_of_mem_children hmem
    rw [parent?_of_mem_children hchild] at hsame
    cases hsame
    exact absurd hkind hparent
  · exact hin

variable {callback body : Node} {change : Change} {edit : Edit} {slot : Span}

/-- An argument around a reference is around what is asked for because of it. -/
theorem Request.contains_argument (hnest : tree.WellNested source)
    (hcallback : Within (root tree) callback) (hliteral : callback.kind.isCallbackLiteral = true)
    (hbody : body ∈ callback.children) (href : Within body reference)
    (hmention : Mention source tree reference) (h : Request reference change)
    (hlist : Within (root tree) list) (hkind : list.kind = .arguments)
    (hmem : argument ∈ list.children) (hin : Within argument reference) :
    argument.span.contains (change.span source) = true := by
  have hargument := hlist.child hmem
  rcases h.in_body source hcallback hliteral hbody href with
    ⟨node, hnode, _, hspan⟩ |
      ⟨call, statement, outer, hcall, hchild, hstatement, hkind', houter, hislist, hin', hspan⟩
  · rw [hspan]
    exact hnest.contains hargument (hnode.within_argument hmention hlist hkind hmem hin)
  · have hwithin := (hcallback.child hbody).trans hstatement
    obtain ⟨block, _, hshelter⟩ := hnest.exists_shelter hwithin hkind' houter hislist
      (hin'.ne_root hbody)
    have hup := within_argument_of_child hkind hmem hchild (by simp [hkind'])
      (hcall.within_argument hmention hlist hkind hmem hin)
    rw [hspan]
    rcases hshelter.around hup with rfl | hblock | hcase
    · -- A statement is no argument: its parent is a list of statements.
      rw [parent?_of_mem_children hmem] at houter
      cases houter
      simp [hkind, Assertion.isStatementList] at hislist
    · exact Span.contains_trans (hnest.contains hargument hblock)
        (hshelter.grown (Source.grown_statementLine hshelter.start_le))
    · have hparent := hnest.cases argument (mem_nodes_of_within hargument) hcase
      simp [parent?_of_mem_children hmem, hkind] at hparent

/-- Around a reference that asks for a change a slot is nowhere near it, or around the change. -/
theorem ArgumentSlot.separate_or_around (hnest : tree.WellNested source)
    (hlex : tree.Lexical source) (hcallback : Within (root tree) callback)
    (hliteral : callback.kind.isCallbackLiteral = true) (hbody : body ∈ callback.children)
    (href : Within body reference) (hmention : Mention source tree reference)
    (hrequest : Request reference change) (h : ArgumentSlot source tree edit slot) :
    slot.Separate reference.span ∨ slot.contains (change.span source) = true := by
  obtain ⟨hother, hcallee, hcall, _, hlist, hkind, hmem⟩ := h
  obtain ⟨_, _, _, hwithin⟩ := headOf?_eq_some (hcallee.within hother.within).1 hcall
  have hlist := hwithin.trans (within_of_child? hlist)
  have haround := fun hin => hrequest.contains_argument hnest hcallback hliteral hbody href hmention
    hlist hkind hmem hin
  rcases hnest.compare (hlist.child hmem) hmention.within with hin | hin | hseparate
  · exact .inr (haround hin)
  · exact .inr (haround (hmention.eq_of_within hlex.leaf hin ▸ .self))
  · exact .inl hseparate

/-- A change that is asked for because of a reference takes it in. -/
theorem Request.contains_reference (hnest : tree.WellNested source)
    (hcallback : Within (root tree) callback) (hliteral : callback.kind.isCallbackLiteral = true)
    (hbody : body ∈ callback.children) (href : Within body reference)
    (h : Request reference change) :
    (change.span source).contains reference.span = true := by
  have htop := hcallback.child hbody
  rcases h.in_body source hcallback hliteral hbody href with
    ⟨node, hnode, hin, hspan⟩ |
      ⟨call, statement, outer, hcall, hchild, hstatement, hkind, houter, hislist, hin, hspan⟩
  · rw [hspan]
    exact hnest.contains (htop.trans hin) (hnode.within (htop.trans href)).2
  · have hwithin := htop.trans hstatement
    obtain ⟨block, _, hshelter⟩ := hnest.exists_shelter hwithin hkind houter hislist
      (hin.ne_root hbody)
    rw [hspan]
    exact Span.contains_trans (Source.grown_statementLine hshelter.start_le).contains
      (hnest.contains hwithin
        ((Within.of_mem_children hchild).trans (hcall.within (htop.trans href)).2))

end

/-! ## What a run records around a reference -/

/-- Some recorded edit takes in the span and does not copy it. -/
def ChangeSet.Covers (changes : ChangeSet) (target : Span) : Prop :=
  ∃ edit ∈ changes.edits, edit.span.contains target = true ∧
    ∀ slot, .source slot ∈ edit.parts → slot.contains target = false

namespace Callback

/-- Every slot of an edit that the plan for a callback asks for is an argument. -/
theorem argumentSlot_of_plan {source : Source} {tree : Tree} {callback : Node} {completion : Bool}
    {change : Change} {edit : Edit} {slot : Span} (hcallback : Within (root tree) callback)
    (hchange : change ∈ (plan (ScopeTable.build source tree) source callback completion).changes)
    (hask : change.edit? source = some edit) (hslot : .source slot ∈ edit.parts) :
    ArgumentSlot source tree edit slot := by
  obtain ⟨first, rest, body, hparameters, _, hbody, horigin⟩ := origin_of_plan hchange
  cases horigin with
  | reference hlocal hdeclared href hrequest =>
      have hfirst : first ∈ callback.parameters := by simp [hparameters]
      have hname := (hcallback.trans (below_of_mem_parameters hfirst).1).trans hlocal.within
      obtain ⟨hmention, _⟩ := Mention.of_mem_references (hcallback.trans (within_of_child? hbody))
        hname hdeclared href
      exact hrequest.argumentSlot hmention hask hslot
  | rename =>
      rw [Change.eq_of_edit?_replace hask] at hslot
      exact absurd hslot (by simp [Edit.replace])
  | remove =>
      rw [Change.eq_of_edit?_replace hask] at hslot
      exact absurd hslot (by simp [Edit.replace])

/-- The plan for a callback is carried out on a fresh set of changes, in a tree that keeps the
parser's promises. -/
structure Conversion (source : Source) (tree : Tree) (callback first body : Node)
    (completion : Bool) (changes : ChangeSet) : Prop where
  nest : tree.WellNested source
  lex : tree.Lexical source
  within : Within (root tree) callback
  literal : callback.kind.isCallbackLiteral = true
  head : callback.parameters.head? = some first
  child : callback.child? .body = some body
  run : ChangeSet.applyAll { source }
    (plan (ScopeTable.build source tree) source callback completion).changes = .ok changes

namespace Conversion

variable {source : Source} {tree : Tree} {callback first body reference : Node} {completion : Bool}
  {changes : ChangeSet} {change : Change} {edit : Edit} {slot : Span}

theorem mem_parameters (h : Conversion source tree callback first body completion changes) :
    first ∈ callback.parameters :=
  List.mem_of_head? h.head

theorem body_mem (h : Conversion source tree callback first body completion changes) :
    body ∈ callback.children :=
  mem_children_of_child? h.child

/-- What is recorded was asked for. -/
theorem origin (h : Conversion source tree callback first body completion changes)
    (hedit : edit ∈ changes.edits) :
    ∃ change ∈ (plan (ScopeTable.build source tree) source callback completion).changes,
      change.edit? source = some edit :=
  ChangeSet.origin_applyAll h.run hedit

/-- Every slot of a recorded edit is an argument. -/
theorem argumentSlot (h : Conversion source tree callback first body completion changes)
    (hedit : edit ∈ changes.edits) (hslot : .source slot ∈ edit.parts) :
    ArgumentSlot source tree edit slot := by
  obtain ⟨change, hchange, hask⟩ := h.origin hedit
  exact argumentSlot_of_plan h.within hchange hask hslot

/-- When all nodes end between characters, so do the recorded edits, and they are tidy. -/
theorem tidy (h : Conversion source tree callback first body completion changes)
    (hread : tree.Readable source) : ChangeSet.Tidy changes.edits ∧
      ∀ edit ∈ changes.edits, source.whole.contains edit.span = true := by
  have hslice : ∀ edit ∈ changes.edits, (source.slice? edit.span).isSome := by
    intro edit hedit
    obtain ⟨change, hchange, hask⟩ := h.origin hedit
    rw [Change.span_of_edit? hask]
    exact (inside_of_plan h.nest h.within h.literal hchange).readable hread
  refine ⟨⟨?_, ?_⟩, ?_⟩
  · intro edit hedit
    obtain ⟨text, htext⟩ := Option.isSome_iff_exists.mp (hslice edit hedit)
    exact (Source.bounds_of_slice? htext).1
  · intro edit hedit slot hslot
    exact ((h.argumentSlot hedit hslot).bounds h.nest).1
  · intro edit hedit
    obtain ⟨text, htext⟩ := Option.isSome_iff_exists.mp (hslice edit hedit)
    exact Span.contains_iff.mpr
      ⟨Nat.zero_le _, Source.le_size_of_isBoundary (Source.bounds_of_slice? htext).2.2⟩

/-- A reference that asks for an edit is covered, and nothing of it is in the new text. -/
theorem covered_of_request (h : Conversion source tree callback first body completion changes)
    (hmention : Mention source tree reference) (href : Within body reference)
    (hrequest : Request reference change)
    (hchange : change ∈ (plan (ScopeTable.build source tree) source callback completion).changes)
    (hasked : change.edit? source = some edit) :
    changes.Covers reference.span ∧ (tree.Readable source →
      ∀ piece, .source piece ∈ changes.pieces → piece.Separate reference.span) := by
  have hrecorded := ChangeSet.recorded_applyAll h.run
  obtain ⟨cover, hcover, hspan⟩ := hrecorded.covered change hchange edit hasked
  rw [Change.span_of_edit? hasked] at hspan
  have hcontains : cover.span.contains reference.span = true := by
    rw [hspan]
    exact hrequest.contains_reference h.nest h.within h.literal h.body_mem href
  have hslots : ∀ edit ∈ changes.edits, ∀ slot, .source slot ∈ edit.parts →
      slot.Separate reference.span ∨ slot.contains cover.span = true := by
    intro edit hedit slot hslot
    rw [hspan]
    exact (h.argumentSlot hedit hslot).separate_or_around h.nest h.lex h.within h.literal h.body_mem
      href hmention hrequest
  -- A slot of the cover is not around the cover.
  have hown : ∀ slot, .source slot ∈ cover.parts → slot.Separate reference.span := by
    intro slot hslot
    rcases hslots cover hcover slot hslot with hseparate | haround
    · exact hseparate
    · rw [((h.argumentSlot hcover hslot).bounds h.nest).2] at haround
      exact absurd haround (by simp)
  have hlt := hmention.start_lt_stop
  refine ⟨⟨cover, hcover, hcontains, ?_⟩, ?_⟩
  · intro slot hslot
    rw [← Bool.not_eq_true, Span.contains_iff]
    rcases hown slot hslot with hleft | hright <;> omega
  · intro hread
    obtain ⟨htidy, hwhole⟩ := h.tidy hread
    have hempty : ChangeSet.Laminar { source } := List.Pairwise.nil
    refine ChangeSet.separate_of_mem_pieces (ChangeSet.laminar_applyAll hempty h.run) htidy hcover
      ?_ hlt hcontains hown hslots
    rw [hrecorded.source]
    exact hwhole cover hcover

end Conversion

end Callback

end JestMigration
