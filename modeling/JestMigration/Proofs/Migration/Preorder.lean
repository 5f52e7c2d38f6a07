/-
# `Proofs.Migration.Preorder` — calls are found outer first, left to right

The calls of a file are listed by going through its tree with a list of nodes to
come.  Here the same walk is taken as a loop over a stack (`Stack.step?`): each
round takes the last node off the stack, keeps it if it is a call, and puts its
children on the stack with the first one last.  What carries the loop is that
the nodes to come, read off the stack, lose their first one in each round and
nothing else (`pending_concat`).  So the loop ends after as many rounds as there
are nodes (`steps?_eq`).  Its calls are those of the recursive listing
(`Tree.preorder`), where a node stands before all that is below it and a subtree
before its neighbours to the right (`pairwise_before_nodes`).
-/
import JestMigration.Migration
import JestMigration.Proofs.Scope.References

namespace JestMigration

namespace Tree

mutual

/-- The nodes of a tree by recursion, its topmost one with number `id` first. -/
def preorder (above : List (Nat × Tree)) (id : Nat) : Tree → List Node
  | .node label children =>
    ⟨id, .node label children, above⟩ ::
      preorderAll ((id, .node label children) :: above) (id + 1) children

/-- The nodes of neighbouring trees, one tree after the other. -/
def preorderAll (above : List (Nat × Tree)) (id : Nat) : List Tree → List Node
  | [] => []
  | tree :: rest => tree.preorder above id ++ preorderAll above (id + tree.size) rest

end

mutual

theorem length_preorder (above : List (Nat × Tree)) (id : Nat) :
    ∀ tree : Tree, (tree.preorder above id).length = tree.size
  | .node label children => by
      rw [preorder, List.length_cons, length_preorderAll, size]

theorem length_preorderAll (above : List (Nat × Tree)) (id : Nat) :
    ∀ trees : List Tree, (preorderAll above id trees).length = sizeAll trees
  | [] => rfl
  | tree :: rest => by
      rw [preorderAll, List.length_append, length_preorder, length_preorderAll, sizeAll]

end

end Tree

namespace Node

mutual

/-- The walk is the recursive listing. -/
theorem nodes_eq_preorder (above : List (Nat × Tree)) (id : Nat) :
    ∀ tree : Tree, nodes ⟨id, tree, above⟩ = tree.preorder above id
  | .node label children => by
      rw [nodes_eq, Tree.preorder]
      exact congrArg _ (flatMap_nodes_place _ _ children)

theorem flatMap_nodes_place (above : List (Nat × Tree)) (id : Nat) :
    ∀ trees : List Tree, (place above id trees).flatMap nodes = Tree.preorderAll above id trees
  | [] => rfl
  | tree :: rest => by
      rw [place, List.flatMap_cons, nodes_eq_preorder, flatMap_nodes_place, Tree.preorderAll]

end

/-! ## Source order -/

/-- Below `top`, `a` comes before `b`: it is around `b`, or the two branch off from a common node
and `a` does so further left. -/
def Before (top a b : Node) : Prop :=
  (Within a b ∧ a ≠ b) ∨
    ∃ fork x y, Within top fork ∧ [x, y].Sublist fork.children ∧ Within x a ∧ Within y b

theorem Before.of_within {top inner a b : Node} (h : Within top inner) (hab : Before inner a b) :
    Before top a b := by
  rcases hab with haround | ⟨fork, x, y, hfork, hxy, hxa, hyb⟩
  · exact .inl haround
  · exact .inr ⟨fork, x, y, h.trans hfork, hxy, hxa, hyb⟩

theorem pairwise_before_nodes (top : Node) : top.nodes.Pairwise (Before top) := by
  rw [nodes_eq, List.pairwise_cons, List.pairwise_flatMap]
  refine ⟨?_, ?_, ?_⟩
  · intro node hnode
    obtain ⟨child, hmem, hin⟩ := List.mem_flatMap.mp hnode
    have hbelow := within_of_mem_nodes hin
    refine .inl ⟨(Within.of_mem_children hmem).trans hbelow, ?_⟩
    rintro rfl
    have hlt := (id_bounds_of_mem_children hmem).1
    have hle := hbelow.id_bounds.1
    omega
  · intro child hmem
    exact (pairwise_before_nodes child).imp (Before.of_within (.of_mem_children hmem))
  · rw [List.pairwise_iff_forall_sublist]
    intro x y hxy a ha b hb
    exact .inr ⟨top, x, y, .self, hxy, within_of_mem_nodes ha, within_of_mem_nodes hb⟩
termination_by top.tree.size
decreasing_by exact size_lt_of_mem_children (by assumption)

theorem nodup_nodes (top : Node) : top.nodes.Nodup :=
  top.pairwise_id_nodes.imp fun hlt heq => absurd (congrArg id heq) (Nat.ne_of_lt hlt)

end Node

namespace Migration

/-! ## The loop over the stack -/

/-- Where the loop stands: the nodes put off, the next one last, and the calls found so far. -/
structure Stack where
  nodes : List Node
  calls : List Node

namespace Stack

/-- One round of the loop, none when the stack is empty. -/
def step? (stack : Stack) : Option Stack :=
  stack.nodes.getLast?.map fun node =>
    { nodes := stack.nodes.dropLast ++ node.children.reverse
      calls := if node.kind == .callExpression then stack.calls ++ [node] else stack.calls }

/-- So many rounds, none if the stack is empty before. -/
def steps? : Nat → Stack → Option Stack
  | 0, stack => some stack
  | rounds + 1, stack => stack.step?.bind (steps? rounds)

/-- The nodes to come. -/
def pending (stack : Stack) : List Node :=
  Node.walk stack.nodes.reverse

/-- The node taken off the stack was the first to come, and its children are the next ones; what has
been found plays no part in it. -/
theorem pending_concat (front calls found : List Node) (node : Node) :
    pending ⟨front ++ [node], calls⟩ = node :: pending ⟨front ++ node.children.reverse, found⟩ := by
  simp only [pending, List.reverse_append, List.reverse_singleton, List.singleton_append,
    List.reverse_reverse, Node.walk]

theorem step?_concat (front calls : List Node) (node : Node) :
    step? ⟨front ++ [node], calls⟩ = some ⟨front ++ node.children.reverse,
      calls ++ [node].filter fun node => node.kind == .callExpression⟩ := by
  rw [step?, List.getLast?_concat, List.dropLast_concat, Option.map_some]
  cases hcall : node.kind == .callExpression <;> simp [hcall]

theorem nodes_of_pending_eq_nil {stack : Stack} (h : stack.pending = []) : stack.nodes = [] := by
  rcases List.eq_nil_or_concat' stack.nodes with hempty | ⟨front, node, hnodes⟩
  · exact hempty
  · rw [pending, hnodes, List.reverse_append, List.reverse_singleton, List.singleton_append,
      Node.walk] at h
    exact absurd h (List.cons_ne_nil _ _)

/-- A round takes the first of the nodes to come off, and keeps it if it is a call. -/
theorem exists_step? {stack : Stack} {node : Node} {rest : List Node}
    (h : stack.pending = node :: rest) : ∃ next : Stack, stack.step? = some next ∧
      next.pending = rest ∧
      next.calls = stack.calls ++ [node].filter fun node => node.kind == .callExpression := by
  obtain ⟨nodes, calls⟩ := stack
  rcases List.eq_nil_or_concat' nodes with rfl | ⟨front, top, rfl⟩
  · rw [pending, List.reverse_nil, Node.walk] at h
    exact absurd h.symm (List.cons_ne_nil _ _)
  · rw [pending_concat, List.cons.injEq] at h
    obtain ⟨rfl, hrest⟩ := h
    exact ⟨_, step?_concat front calls top, hrest, rfl⟩

/-- The loop ends when it has gone through the nodes to come, with the calls among them. -/
theorem steps?_eq {rest : List Node} : ∀ {stack : Stack}, stack.pending = rest →
    steps? rest.length stack =
      some ⟨[], stack.calls ++ rest.filter fun node => node.kind == .callExpression⟩ := by
  -- On the nodes to come, since the stack itself may grow in a round.
  induction rest with
  | nil =>
      intro stack hpending
      obtain ⟨nodes, calls⟩ := stack
      have hnodes : nodes = [] := nodes_of_pending_eq_nil hpending
      rw [hnodes, List.filter_nil, List.append_nil]
      rfl
  | cons node rest ih =>
      intro stack hpending
      obtain ⟨next, hstep, hnext, hcalls⟩ := exists_step? hpending
      rw [List.length_cons, steps?, hstep, Option.bind_some, ih hnext, hcalls, List.append_assoc,
        ← List.filter_append, List.singleton_append]

end Stack

/-- The loop over the stack takes one round for every node of the tree and then ends.  It leaves the
calls of the tree, each of them once, as the recursive listing has them: a call before the calls in
its callee and its arguments, and these from left to right. -/
theorem calls_in_preorder (tree : Tree) :
    Stack.steps? tree.size ⟨[Node.root tree], []⟩ = some ⟨[], calls (Node.root tree)⟩ ∧
    Stack.step? ⟨[], calls (Node.root tree)⟩ = none ∧
    calls (Node.root tree) =
      (tree.preorder [] 0).filter (fun node => node.kind == .callExpression) ∧
    (∀ node, node ∈ calls (Node.root tree) ↔
      Node.Within (Node.root tree) node ∧ node.kind = .callExpression) ∧
    (calls (Node.root tree)).Nodup ∧
    (calls (Node.root tree)).Pairwise (Node.Before (Node.root tree)) := by
  have hlisting : (Node.root tree).nodes = tree.preorder [] 0 := Node.nodes_eq_preorder [] 0 tree
  refine ⟨?_, rfl, ?_, ?_, ?_, ?_⟩
  · have hpending : Stack.pending ⟨[Node.root tree], []⟩ = tree.preorder [] 0 := hlisting
    have hend := Stack.steps?_eq hpending
    rw [Tree.length_preorder, List.nil_append, ← hlisting] at hend
    exact hend
  · rw [calls, hlisting]
  · intro node
    rw [calls, List.mem_filter, Node.mem_nodes_iff, beq_iff_eq]
  · exact (Node.root tree).nodup_nodes.filter _
  · exact (Node.root tree).pairwise_before_nodes.filter _

end Migration

end JestMigration
