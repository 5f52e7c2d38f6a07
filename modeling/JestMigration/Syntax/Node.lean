/-
# `Syntax.Node` — positions in a tree

A `Node` is a subtree seen where it stands: with its number in preorder and the
nodes that enclose it.  The number is computed from the tree, so two positions
are the same exactly when their numbers are.  Children and parent of a node are
nodes again.  `Node.walk` lists the nodes below given ones, each before its
children and in source order, from a list of pending nodes.
-/
import JestMigration.Syntax.Tree

namespace JestMigration

/-- A subtree in its place. -/
structure Node where
  /-- The number of the node in preorder, the root being 0. -/
  id : Nat
  tree : Tree
  /-- The enclosing nodes with their numbers, the nearest first. -/
  above : List (Nat × Tree)

namespace Node

/-- The topmost node of a tree. -/
def root (tree : Tree) : Node :=
  ⟨0, tree, []⟩

/-- What the node is. -/
def kind (node : Node) : Kind :=
  node.tree.label.kind

/-- Is the node more than a token of punctuation or a keyword? -/
def isNamed (node : Node) : Bool :=
  node.tree.label.named

/-- The bytes the node covers. -/
def span (node : Node) : Span :=
  node.tree.label.span

/-- The role of the node in its parent. -/
def field? (node : Node) : Option Field :=
  node.tree.label.field?

/-- Puts neighbouring subtrees in their places, the first with number `id`. -/
def place (above : List (Nat × Tree)) : (id : Nat) → List Tree → List Node
  | _, [] => []
  | id, tree :: rest => ⟨id, tree, above⟩ :: place above (id + tree.size) rest

/-- The nodes right below, in source order. -/
def children (node : Node) : List Node :=
  place ((node.id, node.tree) :: node.above) (node.id + 1) node.tree.children

/-- The node right above. -/
def parent? (node : Node) : Option Node :=
  match node.above with
  | [] => none
  | (id, tree) :: above => some ⟨id, tree, above⟩

/-- The numbers of the node and of the nodes that enclose it, the nearest first. -/
def lineage (node : Node) : List Nat :=
  node.id :: node.above.map Prod.fst

/-- The first child with a given role. -/
def child? (node : Node) (field : Field) : Option Node :=
  node.children.find? fun child => child.field? == some field

/-- The named children without comments. -/
def namedChildren (node : Node) : List Node :=
  node.children.filter fun child => child.isNamed && child.kind != .comment

/-! ## Size: what makes walks end -/

/-- The number of nodes of several subtrees. -/
def sizeAll (nodes : List Node) : Nat :=
  Tree.sizeAll (nodes.map Node.tree)

theorem map_tree_place (above : List (Nat × Tree)) (id : Nat) (trees : List Tree) :
    (place above id trees).map Node.tree = trees := by
  induction trees generalizing id with
  | nil => rfl
  | cons tree rest ih => simp only [place, List.map_cons, ih]

theorem sizeAll_children (node : Node) : sizeAll node.children + 1 = node.tree.size := by
  rw [sizeAll, children, map_tree_place, Tree.size_eq]

theorem size_le_sizeAll {node : Node} {nodes : List Node} (h : node ∈ nodes) :
    node.tree.size ≤ sizeAll nodes := by
  induction nodes with
  | nil => exact absurd h List.not_mem_nil
  | cons first rest ih =>
    simp only [sizeAll, List.map_cons, Tree.sizeAll] at ih ⊢
    rcases List.mem_cons.mp h with rfl | h
    · exact Nat.le_add_right _ _
    · exact Nat.le_trans (ih h) (Nat.le_add_left _ _)

/-- A child has fewer nodes than its parent. -/
theorem size_lt_of_mem_children {node child : Node} (h : child ∈ node.children) :
    child.tree.size < node.tree.size := by
  have := size_le_sizeAll h
  have := sizeAll_children node
  omega

theorem mem_children_of_child? {node child : Node} {field : Field}
    (h : node.child? field = some child) : child ∈ node.children :=
  List.mem_of_find?_eq_some h

theorem mem_children_of_mem_namedChildren {node child : Node} (h : child ∈ node.namedChildren) :
    child ∈ node.children :=
  (List.mem_filter.mp h).1

/-! ## Walking -/

/-- The pending nodes and all nodes below them, each before its children. -/
def walk : (pending : List Node) → List Node
  | [] => []
  | node :: pending => node :: walk (node.children ++ pending)
termination_by pending => sizeAll pending
decreasing_by
  have := sizeAll_children node
  simp only [sizeAll, List.map_append, List.map_cons, Tree.sizeAll_append, Tree.sizeAll] at this ⊢
  omega

/-- The node and all nodes below it. -/
def nodes (node : Node) : List Node :=
  walk [node]

end Node

end JestMigration
