/-
# `Proofs.Scope.References` — every use belongs to one binding

The references of a binding below a node are found by a walk and then sorted by
their first byte.  The walk lists nodes in the order of their numbers
(`pairwise_id_nodes`), and where spans are nested as the tree is, numbers and
first bytes grow together (`Tree.Nested.start_le`), so the sort changes nothing
(`references_eq_found`).

What a name means is spelled like the name (`Sound.exists_of_resolve?`).  So the
comparison of texts in the search never decides, and a reference is a name that
declares nothing and means the binding (`Sound.mem_found_iff`): the
references of all bindings divide the names that mean something at all.
-/
import JestMigration.Proofs.Scope.Resolve
import JestMigration.Proofs.Syntax.Nesting
import Mathlib.Data.List.Sort

namespace JestMigration

open Node

/-! ## Numbers and bytes -/

/-- A node that comes later in the tree begins later, or at the same byte. -/
theorem Tree.Nested.start_le {tree : Tree} {a b : Node} (h : tree.Nested)
    (ha : Within (root tree) a) (hb : Within (root tree) b)
    (hid : a.id ≤ b.id) : a.span.start ≤ b.span.start := by
  rcases ha.compare hb with hab | hba | ⟨fork, x, y, hfork, hx, hy, hne, hxa, hyb⟩
  · exact (h.span_le ha hab).1
  · rw [hba.eq_of_id_le hid]
  · -- The two children of the fork are in the order of the numbers, and so are their spans.
    have hspans := h.ordered fork (mem_nodes_of_within hfork)
    have hsep := or_of_pairwise (fork.children_pairwise.and hspans) hx hy hne
    have hspana := h.span_le (hfork.child hx) hxa
    have hspanb := h.span_le (hfork.child hy) hyb
    have hforward := h.forward a (mem_nodes_of_within ha)
    have hida := hxa.id_bounds
    have hidb := hyb.id_bounds
    have hpos := b.tree.size_pos
    rcases hsep with ⟨_, hspan⟩ | ⟨hids, _⟩ <;> omega

namespace Node

/-- The walk comes to the nodes in the order of their numbers. -/
theorem pairwise_id_nodes (top : Node) : top.nodes.Pairwise fun a b => a.id < b.id := by
  rw [nodes_eq, List.pairwise_cons, List.pairwise_flatMap]
  refine ⟨?_, fun child _ => pairwise_id_nodes child, ?_⟩
  · intro node hnode
    obtain ⟨child, hmem, hin⟩ := List.mem_flatMap.mp hnode
    have hlt := (id_bounds_of_mem_children hmem).1
    have hle := (within_of_mem_nodes hin).id_bounds.1
    omega
  · refine top.children_pairwise.imp fun {x y} hxy a ha b hb => ?_
    have hina := (within_of_mem_nodes ha).id_bounds
    have hinb := (within_of_mem_nodes hb).id_bounds
    have hpos := a.tree.size_pos
    omega
termination_by top.tree.size
decreasing_by exact size_lt_of_mem_children (by assumption)

/-- Two lists in the order of numbers with the same nodes are the same. -/
theorem eq_of_pairwise_id {xs ys : List Node} (hxs : xs.Pairwise fun a b => a.id < b.id)
    (hys : ys.Pairwise fun a b => a.id < b.id) (h : ∀ node, node ∈ xs ↔ node ∈ ys) : xs = ys := by
  have : Std.Irrefl fun a b : Node => a.id < b.id := ⟨fun _ => Nat.lt_irrefl _⟩
  have : Std.Antisymm fun a b : Node => a.id < b.id :=
    ⟨fun _ _ hab hba => absurd hab (Nat.lt_asymm hba)⟩
  exact hxs.eq_of_mem_iff hys h

/-- The nodes below a node are those of the tree that have it in their lineage. -/
theorem nodes_eq_filter {tree : Tree} {top : Node} (h : Within (root tree) top) :
    top.nodes = (root tree).nodes.filter fun node => top.id ∈ node.lineage := by
  refine eq_of_pairwise_id top.pairwise_id_nodes ((root tree).pairwise_id_nodes.filter _) ?_
  intro node
  rw [List.mem_filter, mem_nodes_iff, mem_nodes_iff, decide_eq_true_iff]
  constructor
  · intro hin
    exact ⟨h.trans hin, (mem_lineage_iff (h.trans hin)).mpr ⟨top, h, hin, rfl⟩⟩
  · rintro ⟨hnode, hid⟩
    obtain ⟨above, habove, hin, hsame⟩ := (mem_lineage_iff hnode).mp hid
    exact habove.eq_of_id h hsame ▸ hin

end Node

/-! ## References -/

namespace ScopeTable

/-- The node is a name that declares nothing and means the binding. -/
structure Refers (table : ScopeTable) (source : Source) (binding : BindingId) (node : Node) :
    Prop where
  isName : node.kind.isName = true
  declares : table.declaredAt? node = none
  means : table.resolve? source node = some binding

/-- What the search for references comes to, before it is sorted. -/
def found (table : ScopeTable) (source : Source) (top : Node) (binding : BindingId) : List Node :=
  match table.bindings[binding]? with
  | some entry => top.nodes.filter (table.isReference source entry.name binding)
  | none => []

variable {source : Source} {tree : Tree} {table : ScopeTable} {top node : Node}
  {binding : BindingId}

/-- What a name means is spelled like it. -/
theorem Sound.exists_of_resolve? {bound : Nat} (h : Sound source tree bound table)
    (hmeans : table.resolve? source node = some binding) :
    ∃ scope, table.bindings[binding]? = some ⟨node.text source, scope⟩ := by
  obtain ⟨scope, _, hname⟩ := List.exists_of_findSome?_eq_some hmeans
  exact ⟨scope, h.names.mp hname⟩

theorem Sound.isReference_iff {bound : Nat} (h : Sound source tree bound table) {entry : Binding}
    (hentry : table.bindings[binding]? = some entry) :
    table.isReference source entry.name binding node = true ↔
      table.Refers source binding node := by
  have hname : node.kind.isName = true ↔
      node.kind = .identifier ∨ node.kind = .shorthandProperty := by
    cases node.kind <;> simp [Kind.isName]
  simp only [isReference, Bool.and_eq_true, Bool.or_eq_true, beq_iff_eq, Option.isNone_iff_eq_none,
    ← hname]
  constructor
  · rintro ⟨⟨⟨hkind, _⟩, hdeclares⟩, hmeans⟩
    exact ⟨hkind, hdeclares, hmeans⟩
  · rintro ⟨hkind, hdeclares, hmeans⟩
    obtain ⟨scope, hfound⟩ := h.exists_of_resolve? hmeans
    rw [hentry] at hfound
    exact ⟨⟨⟨hkind, congrArg Binding.name (Option.some.inj hfound).symm⟩, hdeclares⟩, hmeans⟩

theorem Sound.mem_found_iff {bound : Nat} (h : Sound source tree bound table) :
    node ∈ table.found source top binding ↔ Within top node ∧ table.Refers source binding node := by
  unfold found
  cases hentry : table.bindings[binding]? with
  | some entry => rw [List.mem_filter, mem_nodes_iff, h.isReference_iff hentry]
  | none =>
      refine ⟨fun hmem => absurd hmem List.not_mem_nil, ?_⟩
      rintro ⟨_, hrefers⟩
      obtain ⟨_, hfound⟩ := h.exists_of_resolve? hrefers.means
      simp [hentry] at hfound

theorem pairwise_id_found (table : ScopeTable) (source : Source) (top : Node)
    (binding : BindingId) :
    (table.found source top binding).Pairwise fun a b => a.id < b.id := by
  unfold found
  split
  · exact top.pairwise_id_nodes.filter _
  · exact .nil

theorem pairwise_start_found (hnest : tree.Nested) (htop : Within (root tree) top) :
    (table.found source top binding).Pairwise fun a b => a.span.start ≤ b.span.start := by
  have hwithin : ∀ node ∈ table.found source top binding, Within (root tree) node := by
    intro node hnode
    unfold found at hnode
    split at hnode
    · exact htop.trans (within_of_mem_nodes (List.mem_filter.mp hnode).1)
    · exact absurd hnode List.not_mem_nil
  refine (table.pairwise_id_found source top binding).imp_of_mem ?_
  intro a b ha hb hid
  exact hnest.start_le (hwithin a ha) (hwithin b hb) (Nat.le_of_lt hid)

/-- The references are found in order. -/
theorem references_eq_found (hnest : tree.Nested) (htop : Within (root tree) top) :
    table.references source top binding = table.found source top binding := by
  have hordered : (table.found source top binding).Pairwise
      fun a b => a.span.start ≤ b.span.start := pairwise_start_found hnest htop
  unfold references
  unfold found at hordered ⊢
  cases hentry : table.bindings[binding]? with
  | some entry =>
      rw [hentry] at hordered
      exact List.mergeSort_of_pairwise (hordered.imp decide_eq_true)
  | none => rfl

/-- The references below a node are those of the whole tree that have it in their lineage. -/
theorem found_eq_filter (htop : Within (root tree) top) :
    table.found source top binding =
      (table.found source (root tree) binding).filter fun node => top.id ∈ node.lineage := by
  unfold found
  split
  · rw [nodes_eq_filter htop, List.filter_filter, List.filter_filter]
    simp only [Bool.and_comm]
  · rfl

/-- References are listed once, in the order of the tree and of their bytes, and without the sort
having to move any; they are the names that declare nothing and mean the binding.  So the bindings
share no reference, every name that declares nothing and means something is a reference, and the
references below a node are those of the program that stand there. -/
theorem references_partitioned (source : Source) (tree : Tree) (hnest : tree.Nested) :
    (∀ top binding, Within (root tree) top →
      (∀ node, node ∈ (build source tree).references source top binding ↔
        Within top node ∧ (build source tree).Refers source binding node) ∧
      ((build source tree).references source top binding).Pairwise (fun a b => a.id < b.id) ∧
      ((build source tree).references source top binding).Pairwise
        (fun a b => a.span.start ≤ b.span.start) ∧
      (build source tree).references source top binding =
        (build source tree).found source top binding ∧
      (build source tree).references source top binding =
        ((build source tree).references source (root tree) binding).filter
          fun node => top.id ∈ node.lineage) ∧
    (∀ a b, a ≠ b → List.Disjoint ((build source tree).references source (root tree) a)
      ((build source tree).references source (root tree) b)) ∧
    ∀ node, (∃ binding, node ∈ (build source tree).references source (root tree) binding) ↔
      Within (root tree) node ∧ node.kind.isName = true ∧
        (build source tree).declaredAt? node = none ∧
        ((build source tree).resolve? source node).isSome = true := by
  have hsound := sound_build source tree
  refine ⟨?_, ?_, ?_⟩
  · intro top binding htop
    rw [references_eq_found hnest htop, references_eq_found hnest .self]
    exact ⟨fun _ => hsound.mem_found_iff, pairwise_id_found _ _ _ _,
      pairwise_start_found hnest htop, rfl, found_eq_filter htop⟩
  · intro a b hne node ha hb
    rw [references_eq_found hnest .self, hsound.mem_found_iff] at ha hb
    have hmeans := ha.2.means
    rw [hb.2.means] at hmeans
    exact hne (Option.some.inj hmeans).symm
  · intro node
    simp only [references_eq_found hnest .self, hsound.mem_found_iff, Option.isSome_iff_exists]
    constructor
    · rintro ⟨binding, hnode, hrefers⟩
      exact ⟨hnode, hrefers.isName, hrefers.declares, binding, hrefers.means⟩
    · rintro ⟨hnode, hname, hdeclares, binding, hmeans⟩
      exact ⟨binding, hnode, hname, hdeclares, hmeans⟩

/-- The test function is used three times; the two contexts with one name have a use each. -/
theorem references_partitioned_sample :
    Sample.tree.Nested ∧
    [0, 1, 2].map (fun binding => ((build Sample.source Sample.tree).references Sample.source
      (root Sample.tree) binding).map fun node => node.span.start) = [[25, 51, 104], [90], [72]] ∧
    List.Disjoint
      ((build Sample.source Sample.tree).references Sample.source (root Sample.tree) 1)
      ((build Sample.source Sample.tree).references Sample.source (root Sample.tree) 2) := by
  have hnest : Sample.tree.Nested := by decide +kernel
  obtain ⟨hlists, hdisjoint, _⟩ := references_partitioned Sample.source Sample.tree hnest
  refine ⟨hnest, ?_, hdisjoint 1 2 (by decide)⟩
  have hfound : ∀ binding, (build Sample.source Sample.tree).references Sample.source
      (root Sample.tree) binding = (build Sample.source Sample.tree).found Sample.source
        (root Sample.tree) binding := fun binding => (hlists _ binding .self).2.2.2.1
  simp only [hfound]
  decide +kernel

end ScopeTable

end JestMigration
