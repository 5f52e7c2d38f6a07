/-
# `Proofs.Syntax.Position` — one tree, many positions

`Node` is a subtree together with its number and the nodes above it, so it says
nothing by itself of the tree it comes from.  `Within top node` says that `node`
is reached from `top` by going to children, and everything here is about nodes
within one root:

  * `mem_nodes_iff`: the walk lists exactly the nodes within its start;
  * `mem_children_of_parent?`: parent and child are inverse to each other;
  * `Within.compare`: of two nodes one is within the other, or they branch off
    from a common node through different children;
  * `Within.eq_of_id`: a node is known by its number;
  * `mem_lineage_iff`: the lineage of a node is what it is within.
-/
import JestMigration.Syntax.Shape
import Mathlib.Data.List.Pairwise

namespace JestMigration

namespace Node

/-! ## Children in their places -/

/-- Subtrees in their places share what is above them and keep to the numbers set aside. -/
theorem place_bounds {above : List (Nat × Tree)} {node : Node} :
    ∀ {id : Nat} {trees : List Tree}, node ∈ place above id trees →
      node.above = above ∧ id ≤ node.id ∧ node.id + node.tree.size ≤ id + Tree.sizeAll trees
  | _, [], h => absurd h List.not_mem_nil
  | _, _ :: _, h => by
      rcases List.mem_cons.mp h with rfl | h
      · exact ⟨rfl, Nat.le_refl _, by simp only [Tree.sizeAll]; omega⟩
      · obtain ⟨habove, hle, hlt⟩ := place_bounds h
        refine ⟨habove, ?_, ?_⟩
        · omega
        · simp only [Tree.sizeAll]
          omega

theorem place_pairwise (above : List (Nat × Tree)) :
    ∀ (id : Nat) (trees : List Tree),
      (place above id trees).Pairwise fun a b => a.id + a.tree.size ≤ b.id
  | _, [] => List.Pairwise.nil
  | _, _ :: rest =>
      List.Pairwise.cons (fun _ h => (place_bounds h).2.1) (place_pairwise above _ rest)

theorem above_of_mem_children {node child : Node} (h : child ∈ node.children) :
    child.above = (node.id, node.tree) :: node.above :=
  (place_bounds h).1

theorem parent?_of_mem_children {node child : Node} (h : child ∈ node.children) :
    child.parent? = some node := by
  simp only [parent?, above_of_mem_children h]

theorem lineage_of_mem_children {node child : Node} (h : child ∈ node.children) :
    child.lineage = child.id :: node.lineage := by
  simp only [lineage, above_of_mem_children h, List.map_cons]

theorem above_eq_lineage {node child : Node} (h : child ∈ node.children) :
    child.above.map Prod.fst = node.lineage := by
  rw [above_of_mem_children h]
  rfl

/-- The numbers below a node lie between its own and the next one after its subtree. -/
theorem id_bounds_of_mem_children {node child : Node} (h : child ∈ node.children) :
    node.id < child.id ∧ child.id + child.tree.size ≤ node.id + node.tree.size := by
  have hb := (place_bounds h).2
  have hs := Tree.size_eq node.tree
  omega

theorem children_pairwise (node : Node) :
    node.children.Pairwise fun a b => a.id + a.tree.size ≤ b.id :=
  place_pairwise _ _ _

/-- The child found in a role has that role. -/
theorem field?_of_child? {node child : Node} {field : Field} (h : node.child? field = some child) :
    child.field? = some field := by
  simpa using List.find?_some h

/-- Children in different roles are different children. -/
theorem child?_ne {node a b : Node} {f g : Field} (hfg : f ≠ g)
    (ha : node.child? f = some a) (hb : node.child? g = some b) : a ≠ b := by
  intro hab
  have hf := field?_of_child? ha
  rw [hab, field?_of_child? hb] at hf
  exact hfg (Option.some.inj hf).symm

/-! ## Being within a node -/

/-- `Within top node`: `node` is `top` or somewhere below it. -/
inductive Within (top : Node) : Node → Prop
  | self : Within top top
  | child {node child : Node} : Within top node → child ∈ node.children → Within top child

namespace Within

theorem of_mem_children {node child : Node} (h : child ∈ node.children) : Within node child :=
  .child .self h

theorem trans {a b c : Node} (hab : Within a b) (hbc : Within b c) : Within a c := by
  induction hbc with
  | self => exact hab
  | child _ hmem ih => exact .child ih hmem

/-- Going down starts with a child. -/
theorem head {top node : Node} (h : Within top node) :
    node = top ∨ ∃ child ∈ top.children, Within child node := by
  induction h with
  | self => exact .inl rfl
  | child _ hmem ih =>
      rcases ih with rfl | ⟨first, hfirst, hwithin⟩
      · exact .inr ⟨_, hmem, .self⟩
      · exact .inr ⟨first, hfirst, .child hwithin hmem⟩

/-- Going up ends at the parent. -/
theorem last {top node : Node} (h : Within top node) :
    node = top ∨ ∃ parent, node ∈ parent.children ∧ Within top parent := by
  cases h with
  | self => exact .inl rfl
  | child hparent hmem => exact .inr ⟨_, hmem, hparent⟩

/-- What is above a child is above its parent, or is the child. -/
theorem of_child {top node child : Node} (h : Within top child) (hmem : child ∈ node.children) :
    top = child ∨ Within top node := by
  cases h with
  | self => exact .inl rfl
  | child hparent hmem' =>
      have hsame := parent?_of_mem_children hmem'
      rw [parent?_of_mem_children hmem] at hsame
      cases hsame
      exact .inr hparent

theorem id_bounds {top node : Node} (h : Within top node) :
    top.id ≤ node.id ∧ node.id + node.tree.size ≤ top.id + top.tree.size := by
  induction h with
  | self => exact ⟨Nat.le_refl _, Nat.le_refl _⟩
  | child _ hmem ih =>
      have hchild := id_bounds_of_mem_children hmem
      omega

/-- Of a node and one within it only the upper can have the smaller number. -/
theorem eq_of_id_le {top node : Node} (h : Within top node) (hid : node.id ≤ top.id) :
    node = top := by
  rcases h.last with heq | ⟨parent, hmem, hparent⟩
  · exact heq
  · have hlt := (id_bounds_of_mem_children hmem).1
    have hle := hparent.id_bounds.1
    omega

/-- Two nodes within each other are one. -/
theorem antisymm {a b : Node} (hab : Within a b) (hba : Within b a) : a = b :=
  (hab.eq_of_id_le hba.id_bounds.1).symm

end Within

/-! ## The walk lists what is within -/

theorem walk_append (xs ys : List Node) : walk (xs ++ ys) = walk xs ++ walk ys := by
  fun_induction walk xs with
  | case1 => rfl
  | case2 node pending ih =>
      rw [List.cons_append, walk, ← List.append_assoc, ih, List.cons_append]

theorem walk_eq_flatMap (pending : List Node) : walk pending = pending.flatMap nodes := by
  induction pending with
  | nil => simp only [walk, List.flatMap_nil]
  | cons node rest ih =>
      rw [← List.singleton_append, walk_append, ih, List.flatMap_append, List.flatMap_singleton,
        nodes]

/-- A node comes before the nodes below it, which come child by child. -/
theorem nodes_eq (node : Node) : node.nodes = node :: node.children.flatMap nodes := by
  rw [nodes, walk, List.append_nil, walk_eq_flatMap]

theorem self_mem_nodes (node : Node) : node ∈ node.nodes := by
  rw [nodes_eq]
  exact List.mem_cons_self

theorem mem_nodes_of_within {top node : Node} (h : Within top node) : node ∈ top.nodes := by
  -- Along the path from `top`: each child of a listed node is listed.
  suffices hdown : ∀ {mid : Node}, Within top mid → ∀ x ∈ mid.nodes, x ∈ top.nodes from
    hdown h _ (self_mem_nodes node)
  intro mid hmid
  induction hmid with
  | self => exact fun _ hx => hx
  | child _ hmem ih =>
      intro x hx
      apply ih
      rw [nodes_eq]
      exact List.mem_cons_of_mem _ (List.mem_flatMap.mpr ⟨_, hmem, hx⟩)

theorem within_of_mem_nodes {top node : Node} (h : node ∈ top.nodes) : Within top node := by
  rw [nodes_eq] at h
  rcases List.mem_cons.mp h with rfl | h
  · exact .self
  · obtain ⟨child, hmem, hchild⟩ := List.mem_flatMap.mp h
    exact (Within.of_mem_children hmem).trans (within_of_mem_nodes hchild)
termination_by top.tree.size
decreasing_by exact size_lt_of_mem_children hmem

theorem mem_nodes_iff {top node : Node} : node ∈ top.nodes ↔ Within top node :=
  ⟨within_of_mem_nodes, mem_nodes_of_within⟩

/-! ## Two nodes of one tree -/

/-- Different members of an ordered list stand in one order or the other. -/
theorem or_of_pairwise {α : Type} {R : α → α → Prop} {l : List α} (hl : l.Pairwise R) {a b : α}
    (ha : a ∈ l) (hb : b ∈ l) (hne : a ≠ b) : R a b ∨ R b a := by
  have : Std.Symm fun x y => R x y ∨ R y x := ⟨fun _ _ h => h.symm⟩
  exact (hl.imp (S := fun x y => R x y ∨ R y x) .inl).forall ha hb hne

/-- What is within a child is not the root. -/
theorem Within.ne_root {tree : Tree} {parent child node : Node} (h : Within child node)
    (hmem : child ∈ parent.children) : node ≠ root tree := by
  rintro rfl
  have hle := h.id_bounds.1
  have hlt := (id_bounds_of_mem_children hmem).1
  simp only [root] at hle
  omega

/-- The two nodes are reached from a common one through different children. -/
def Apart (top a b : Node) : Prop :=
  ∃ fork x y, Within top fork ∧ x ∈ fork.children ∧ y ∈ fork.children ∧ x ≠ y ∧
    Within x a ∧ Within y b

theorem Within.compare {top a b : Node} (ha : Within top a) (hb : Within top b) :
    Within a b ∨ Within b a ∨ Apart top a b := by
  induction ha with
  | self => exact .inl hb
  | @child node child hnode hmem ih =>
      rcases ih with hdown | hup | ⟨fork, x, y, hfork, hx, hy, hne, hxa, hyb⟩
      · rcases hdown.head with rfl | ⟨other, hother, hbelow⟩
        · exact .inr (.inl (.of_mem_children hmem))
        · by_cases hsame : other = child
          · exact .inl (hsame ▸ hbelow)
          · exact .inr (.inr ⟨node, child, other, hnode, hmem, hother, Ne.symm hsame, .self, hbelow⟩)
      · exact .inr (.inl (hup.child hmem))
      · exact .inr (.inr ⟨fork, x, y, hfork, hx, hy, hne, hxa.child hmem, hyb⟩)

/-- Nodes that branch off from each other have numbers in separate ranges. -/
theorem Apart.id_bounds {top a b : Node} (h : Apart top a b) :
    a.id + a.tree.size ≤ b.id ∨ b.id + b.tree.size ≤ a.id := by
  obtain ⟨fork, x, y, _, hx, hy, hne, hxa, hyb⟩ := h
  have hsep := or_of_pairwise fork.children_pairwise hx hy hne
  have ha := hxa.id_bounds
  have hb := hyb.id_bounds
  omega

/-- A node is known by its number. -/
theorem Within.eq_of_id {top a b : Node} (ha : Within top a) (hb : Within top b)
    (hid : a.id = b.id) : a = b := by
  rcases ha.compare hb with h | h | h
  · exact (h.eq_of_id_le (Nat.le_of_eq hid.symm)).symm
  · exact h.eq_of_id_le (Nat.le_of_eq hid)
  · have hsep := h.id_bounds
    have hpa := a.tree.size_pos
    have hpb := b.tree.size_pos
    omega

/-- Nothing is within two nodes that branch off from each other. -/
theorem Apart.not_within {top a b node : Node} (h : Apart top a b) (ha : Within a node)
    (hb : Within b node) : False := by
  have hsep := h.id_bounds
  have hpos := node.tree.size_pos
  have hia := ha.id_bounds
  have hib := hb.id_bounds
  omega

/-- Two nodes with a node within both are within one another. -/
theorem Within.total {top a b node : Node} (hta : Within top a) (htb : Within top b)
    (ha : Within a node) (hb : Within b node) : Within a b ∨ Within b a := by
  rcases hta.compare htb with h | h | h
  · exact .inl h
  · exact .inr h
  · exact (h.not_within ha hb).elim

/-- Only one child is around a node. -/
theorem Within.child_unique {top a b node : Node} (ha : a ∈ top.children) (hb : b ∈ top.children)
    (hain : Within a node) (hbin : Within b node) : a = b := by
  by_contra hne
  have hapart : Apart top a b := ⟨top, a, b, .self, ha, hb, hne, .self, .self⟩
  exact hapart.not_within hain hbin

/-- What is between a node and one below a child is the node, or is below the child. -/
theorem Within.between_child {top child mid node : Node} (hmid : Within top mid)
    (hchild : child ∈ top.children) (hnode : Within child node) (hbelow : Within mid node) :
    mid = top ∨ Within child mid := by
  rcases hmid.head with rfl | ⟨other, hother, hin⟩
  · exact .inl rfl
  · rw [Within.child_unique hother hchild (hin.trans hbelow) hnode] at hin
    exact .inr hin

/-! ## Parents and lineage -/

theorem mem_children_of_parent? {tree : Tree} {node parent : Node}
    (h : Within (root tree) node) (hparent : node.parent? = some parent) :
    node ∈ parent.children ∧ Within (root tree) parent := by
  rcases h.last with rfl | ⟨above, hmem, habove⟩
  · simp [parent?, root] at hparent
  · rw [parent?_of_mem_children hmem] at hparent
    cases hparent
    exact ⟨hmem, habove⟩

theorem mem_lineage_iff {tree : Tree} {node : Node} {id : Nat} (h : Within (root tree) node) :
    id ∈ node.lineage ↔ ∃ above, Within (root tree) above ∧ Within above node ∧ above.id = id := by
  induction h with
  | self =>
      constructor
      · intro hid
        have hid : id = 0 := by simpa [lineage, root] using hid
        exact ⟨root tree, .self, .self, hid.symm⟩
      · rintro ⟨above, htop, hin, rfl⟩
        simp [lineage, htop.antisymm hin]
  | @child parent child hparent hmem ih =>
      rw [lineage_of_mem_children hmem, List.mem_cons, ih]
      constructor
      · rintro (rfl | ⟨above, htop, hin, rfl⟩)
        · exact ⟨child, hparent.child hmem, .self, rfl⟩
        · exact ⟨above, htop, hin.child hmem, rfl⟩
      · rintro ⟨above, htop, hin, rfl⟩
        rcases hin.of_child hmem with rfl | hin
        · exact .inl rfl
        · exact .inr ⟨above, htop, hin, rfl⟩

theorem le_of_mem_lineage {tree : Tree} {node : Node} {id : Nat} (h : Within (root tree) node)
    (hid : id ∈ node.lineage) : id ≤ node.id := by
  obtain ⟨above, _, hin, rfl⟩ := (mem_lineage_iff h).mp hid
  exact hin.id_bounds.1

theorem lt_of_mem_above {tree : Tree} {node : Node} {id : Nat} (h : Within (root tree) node)
    (hid : id ∈ node.above.map Prod.fst) : id < node.id := by
  rcases h.last with rfl | ⟨parent, hmem, hparent⟩
  · exact absurd hid (by simp [root])
  · rw [above_eq_lineage hmem] at hid
    have hle := le_of_mem_lineage hparent hid
    have hlt := (id_bounds_of_mem_children hmem).1
    omega

/-- The lineage of a node goes on, from each node above it, with the lineage of that one. -/
theorem exists_lineage_append {top node : Node} (h : Within top node) :
    ∃ inner, node.lineage = inner ++ top.lineage ∧
      ∀ id ∈ inner, ∃ mid, Within top mid ∧ mid ≠ top ∧ Within mid node ∧ mid.id = id := by
  induction h with
  | self => exact ⟨[], rfl, fun _ hid => absurd hid List.not_mem_nil⟩
  | @child parent child hparent hmem ih =>
      obtain ⟨inner, hinner, hmid⟩ := ih
      refine ⟨child.id :: inner, by rw [lineage_of_mem_children hmem, hinner]; rfl, ?_⟩
      intro id hid
      rcases List.mem_cons.mp hid with rfl | hid
      · refine ⟨child, hparent.child hmem, ?_, .self, rfl⟩
        rintro rfl
        have hlt := (id_bounds_of_mem_children hmem).1
        have hle := hparent.id_bounds.1
        omega
      · obtain ⟨mid, htop, hne, hbelow, rfl⟩ := hmid id hid
        exact ⟨mid, htop, hne, hbelow.child hmem, rfl⟩

/-- Being the head of a node means being its child in the asked role. -/
theorem headOf?_eq_some {tree : Tree} {kind : Kind} {field : Field} {node parent : Node}
    (h : Within (root tree) node) (hhead : node.headOf? kind field = some parent) :
    parent.kind = kind ∧ parent.child? field = some node ∧ node ∈ parent.children ∧
      Within (root tree) parent := by
  unfold headOf? at hhead
  split at hhead
  · rename_i above habove
    split at hhead
    · rename_i hcond
      cases hhead
      obtain ⟨hmem, hwithin⟩ := mem_children_of_parent? h habove
      obtain ⟨found, hfound, hid⟩ := Option.map_eq_some_iff.mp hcond.2
      have hfound' := hwithin.child (mem_children_of_child? hfound)
      have hsame : found = node := hfound'.eq_of_id h hid
      exact ⟨hcond.1, hsame ▸ hfound, hmem, hwithin⟩
    · exact absurd hhead (by simp)
  · exact absurd hhead (by simp)

theorem headOf?_of_child? {kind : Kind} {field : Field} {node parent : Node}
    (hkind : parent.kind = kind) (h : parent.child? field = some node) :
    node.headOf? kind field = some parent := by
  rw [headOf?, parent?_of_mem_children (mem_children_of_child? h)]
  simp [hkind, h]

/-- So a node of the tree is the head of those that have it as their child in the asked role. -/
theorem headOf?_eq_some_iff {tree : Tree} {kind : Kind} {field : Field} {node parent : Node}
    (h : Within (root tree) node) : node.headOf? kind field = some parent ↔
      Within (root tree) parent ∧ parent.kind = kind ∧ parent.child? field = some node := by
  constructor
  · intro hhead
    obtain ⟨hkind, hchild, _, hwithin⟩ := headOf?_eq_some h hhead
    exact ⟨hwithin, hkind, hchild⟩
  · rintro ⟨_, hkind, hchild⟩
    exact headOf?_of_child? hkind hchild

/-- The arguments of a call are the named nodes in its argument list. -/
theorem arguments?_eq_some {call : Node} {arguments : List Node}
    (h : call.arguments? = some arguments) :
    ∃ list, call.child? .arguments = some list ∧ list.kind = .arguments ∧
      arguments = list.namedChildren := by
  unfold arguments? at h
  split at h
  · rename_i list hlist
    split at h
    · cases h
      exact ⟨list, hlist, ‹_›, rfl⟩
    · exact absurd h (by simp)
  · exact absurd h (by simp)

end Node

end JestMigration
