/-
# `Proofs.Migration.Marks` — the leaf that an edit goes back to

Every edit that a registration asks for goes back to one leaf of the tree: to
the name that a call or a member expression begins with, to the name of a
parameter, or to the bracket that opens a pattern or a list of parameters.  The
leaf marks the node that is edited (`Marks`).

Nodes with one span have one mark, since the node further out has its mark in
the node further in (`Marks.unique`).  The exception is a statement: two calls
may make it up, and then both ask for the same deletion (`Marked.unique`).
-/
import JestMigration.Proofs.Migration.Sites

namespace JestMigration

open Node

/-! ## Leaves -/

/-- A node with bytes of its own and nothing below it. -/
structure Node.IsLeaf (tree : Tree) (leaf : Node) : Prop where
  within : Within (root tree) leaf
  children : leaf.children = []
  nonempty : leaf.span.start < leaf.span.stop

namespace Node.IsLeaf

variable {source : Source} {tree : Tree} {leaf other node : Node}

theorem eq_of_within (h : IsLeaf tree leaf) (hin : Within leaf node) : node = leaf := by
  rcases hin.head with heq | ⟨child, hmem, _⟩
  · exact heq
  · rw [h.children] at hmem
    exact absurd hmem List.not_mem_nil

/-- Leaves that begin together are one. -/
theorem eq_of_start (hnest : tree.WellNested source) (h : IsLeaf tree leaf)
    (h' : IsLeaf tree other) (hstart : leaf.span.start = other.span.start) : leaf = other := by
  have hpos := h.nonempty
  have hpos' := h'.nonempty
  rcases hnest.compare h.within h'.within with hin | hin | hsep | hsep
  · exact (h.eq_of_within hin).symm
  · exact h'.eq_of_within hin
  · omega
  · omega

/-- A leaf is in every node that has the span of a node around it. -/
theorem within_of_span (hnest : tree.WellNested source) (h : IsLeaf tree leaf) {outer : Node}
    (houter : Within (root tree) outer) (hleaf : Within outer leaf) (hnode : Within outer node)
    (hspan : node.span = outer.span) : Within node leaf := by
  have hpos := h.nonempty
  obtain ⟨hstart, hstop⟩ := Span.contains_iff.mp (hnest.contains houter hleaf)
  rcases hnest.compare (houter.trans hnode) h.within with hin | hin | hsep | hsep
  · exact hin
  · exact h.eq_of_within hin ▸ .self
  · rw [hspan] at hsep
    omega
  · rw [hspan] at hsep
    omega

theorem of_name (hlead : tree.Leading source) (hnode : Within (root tree) node)
    (hkind : node.kind.isName = true ∨ node.kind = .shorthandPattern) : IsLeaf tree node := by
  obtain ⟨hchildren, hpos⟩ := hlead.names node (mem_nodes_of_within hnode) hkind
  exact ⟨hnode, hchildren, hpos⟩

/-- The token that a node opens with. -/
theorem of_isOpened {text : String} (hne : text ≠ "") (hnode : Within (root tree) node)
    (h : node.isOpened source text = true) :
    ∃ token, node.children.head? = some token ∧ IsLeaf tree token ∧ token.kind = .other text ∧
      token.span.start = node.span.start := by
  simp only [isOpened, Option.any_eq_true, Bool.and_eq_true, beq_iff_eq,
    List.isEmpty_iff] at h
  obtain ⟨token, hhead, ⟨htoken, hstart⟩, hchildren⟩ := h
  have hpos : token.span.start < token.span.stop := by
    apply Source.start_lt_stop_of_read_ne
    simp only [isToken, Bool.and_eq_true, beq_iff_eq] at htoken
    have hread : source.read token.span = text := htoken.2
    rw [hread]
    exact hne
  exact ⟨token, hhead, ⟨hnode.child (List.mem_of_mem_head? hhead), hchildren, hpos⟩,
    kind_of_isToken htoken, hstart⟩

end Node.IsLeaf

/-! ## What begins with a name -/

section

variable {source : Source} {tree : Tree} {reference node : Node}

/-- What begins with a reference begins where the reference begins. -/
theorem Head.start_eq (hlead : tree.Leading source) (href : Within (root tree) reference)
    (h : Head reference node) : node.span.start = reference.span.start := by
  induction h with
  | self => rfl
  | @step node parent hhead hup ih =>
      have hnode := (hhead.within href).1
      rw [← ih]
      rcases hup with hup | hup
      · obtain ⟨hkind, hchild, _, hparent⟩ := headOf?_eq_some hnode hup
        exact (hlead.members parent (mem_nodes_of_within hparent) hkind node hchild).symm
      · obtain ⟨hkind, hchild, _, hparent⟩ := headOf?_eq_some hnode hup
        exact (hlead.calls parent (mem_nodes_of_within hparent) hkind node hchild).symm

/-- A member chain begins with the name at its root. -/
theorem Head.of_memberChain? {chain : Node} {names : List String} {node : Node}
    (h : node.memberChain? source = some (chain, names)) :
    Head chain node ∧ Within node chain ∧ chain.kind = .identifier := by
  unfold memberChain? at h
  split at h
  · rename_i hkind
    cases h
    exact ⟨.self, .self, hkind⟩
  · rename_i hkind
    split at h
    · rename_i object name hobject _
      split at h
      · rename_i root links hlinks
        cases h
        have hlt := size_lt_of_mem_children (mem_children_of_child? hobject)
        obtain ⟨hhead, hin, hroot⟩ := Head.of_memberChain? hlinks
        exact ⟨hhead.step (.inl (headOf?_of_child? hkind hobject)),
          (within_of_child? hobject).trans hin, hroot⟩
      · exact absurd h (by simp)
    · exact absurd h (by simp)
  · exact absurd h (by simp)
termination_by node.tree.size

end

/-! ## Marks -/

open Callback (patternOf patternOf_cases patternOf_eq)

/-- `Marks leaf node`: an edit of the node goes back to the leaf. -/
inductive Marks (leaf : Node) : Node → Prop
  | head {node : Node} : leaf.kind.isName = true → Head leaf node → Marks leaf node
  | statement {call statement : Node} : leaf.kind.isName = true → Head leaf call →
      call ∈ statement.children → statement.kind = .expressionStatement → Marks leaf statement
  | name {parameter : Node} : (patternOf parameter).kind = .identifier →
      patternOf parameter = leaf → Marks leaf parameter
  | brace {parameter : Node} : (patternOf parameter).kind = .objectPattern →
      (patternOf parameter).children.head? = some leaf →
      leaf.span.start = (patternOf parameter).span.start → Marks leaf parameter
  | parenthesis {list : Node} : list.kind = .other "formal_parameters" →
      list.children.head? = some leaf → leaf.span.start = list.span.start → Marks leaf list

namespace Marks

variable {source : Source} {tree : Tree} {leaf other node inner mid : Node}

theorem within (hleaf : Within (root tree) leaf) (h : Marks leaf node) : Within node leaf := by
  cases h with
  | head _ hhead => exact (hhead.within hleaf).2
  | statement _ hhead hmem _ => exact (Within.of_mem_children hmem).trans (hhead.within hleaf).2
  | name _ hsame => exact hsame ▸ Callback.within_patternOf node
  | brace _ hfirst _ => exact (Callback.within_patternOf node).child (List.mem_of_mem_head? hfirst)
  | parenthesis _ hfirst _ => exact .of_mem_children (List.mem_of_mem_head? hfirst)

/-- What begins with a name has no pattern of its own. -/
theorem patternOf_head (hleaf : Within (root tree) leaf) (hname : leaf.kind.isName = true)
    (h : Head leaf node) : patternOf node = node := by
  rcases h.kind hleaf with rfl | hkind | hkind
  · refine patternOf_eq ?_ ?_ <;>
    · intro hkind
      rw [hkind] at hname
      exact absurd hname (by simp [Kind.isName])
  · exact patternOf_eq (by simp [hkind]) (by simp [hkind])
  · exact patternOf_eq (by simp [hkind]) (by simp [hkind])

/-- Statements apart, a node begins with its mark, or its pattern does. -/
theorem start_eq (hlead : tree.Leading source) (hleaf : Within (root tree) leaf)
    (h : Marks leaf node) (hkind : node.kind ≠ .expressionStatement) :
    (patternOf node).span.start = leaf.span.start := by
  cases h with
  | head hname hhead =>
      rw [patternOf_head hleaf hname hhead]
      exact hhead.start_eq hlead hleaf
  | statement _ _ _ hstatement => exact absurd hstatement hkind
  | name _ hsame => rw [hsame]
  | brace _ _ hstart => exact hstart.symm
  | parenthesis hlist _ hstart =>
      rw [patternOf_eq (by simp [hlist]) (by simp [hlist])]
      exact hstart.symm

/-- Between a call or a member expression and the name it begins with all nodes begin there. -/
theorem between_head (hnest : tree.WellNested source) (hlead : tree.Leading source)
    (hleaf : Within (root tree) leaf) (h : Head leaf node) (hmid : Within node mid)
    (hbelow : Within mid leaf) : mid = leaf ∨
      (mid.kind = .memberExpression ∨ mid.kind = .callExpression ∨ mid.kind = .objectPattern) ∧
        mid.span.start = leaf.span.start := by
  have hnode := (h.within hleaf).1
  have hstart := h.start_eq hlead hleaf
  have houter := (hnest.span_le hnode hmid).1
  have hinner := (hnest.span_le (hnode.trans hmid) hbelow).1
  rcases h.between hleaf hmid hbelow with heq | hkind | hkind
  · exact .inl heq
  · exact .inr ⟨.inl hkind, by omega⟩
  · exact .inr ⟨.inr (.inl hkind), by omega⟩

/-- What stands between a node and its mark begins with the mark. -/
theorem between (hnest : tree.WellNested source) (hlead : tree.Leading source)
    (hleaf : IsLeaf tree leaf) (h : Marks leaf node) (hmid : Within node mid)
    (hbelow : Within mid leaf) : mid = node ∨ mid = leaf ∨
      (mid.kind = .memberExpression ∨ mid.kind = .callExpression ∨ mid.kind = .objectPattern) ∧
        mid.span.start = leaf.span.start := by
  cases h with
  | head _ hhead => exact .inr (between_head hnest hlead hleaf.within hhead hmid hbelow)
  | statement _ hhead hmem _ =>
      exact (hmid.between_child hmem (hhead.within hleaf.within).2 hbelow).imp_right
        fun hin => between_head hnest hlead hleaf.within hhead hin hbelow
  | name _ hsame =>
      rcases patternOf_cases node with heq | hmem
      · rw [← hsame, heq] at hbelow
        exact .inl (hbelow.antisymm hmid)
      · rw [hsame] at hmem
        exact (hmid.between_child hmem .self hbelow).imp_right
          fun hin => .inl (hbelow.antisymm hin)
  | brace hkind hfirst hstart =>
      have hleafmem := List.mem_of_mem_head? hfirst
      have hpattern : ∀ {top : Node}, top = patternOf node → Within top mid →
          mid = top ∨ mid = leaf := by
        rintro top rfl hin
        exact (hin.between_child hleafmem .self hbelow).imp_right fun hin => hbelow.antisymm hin
      rcases patternOf_cases node with heq | hmem
      · exact (hpattern heq.symm hmid).imp_right .inl
      · rcases hmid.between_child hmem (.of_mem_children hleafmem) hbelow with heq | hin
        · exact .inl heq
        · rcases hpattern rfl hin with rfl | heq
          · exact .inr (.inr ⟨.inr (.inr hkind), hstart.symm⟩)
          · exact .inr (.inl heq)
  | parenthesis _ hfirst _ =>
      exact (hmid.between_child (List.mem_of_mem_head? hfirst) .self hbelow).imp_right
        fun hin => .inl (hbelow.antisymm hin)

/-- A node further in with the same span has the same mark. -/
theorem eq_of_within (hnest : tree.WellNested source) (hlead : tree.Leading source)
    (hleaf : IsLeaf tree leaf) (hother : IsLeaf tree other) (h : Marks leaf node)
    (h' : Marks other inner) (hnode : Within (root tree) node) (hin : Within node inner)
    (hne : inner ≠ node) (hspan : inner.span = node.span) : leaf = other := by
  have hbelow := hleaf.within_of_span hnest hnode (h.within hleaf.within) hin hspan
  rcases h.between hnest hlead hleaf hin hbelow with heq | rfl | ⟨hkind, hstart⟩
  · exact absurd heq hne
  · exact (hleaf.eq_of_within (h'.within hother.within)).symm
  · have hplain : inner.kind ≠ .expressionStatement ∧ inner.kind ≠ .requiredParameter ∧
        inner.kind ≠ .optionalParameter := by
      rcases hkind with hkind | hkind | hkind <;> simp [hkind]
    have hbegin := h'.start_eq hlead hother.within hplain.1
    rw [patternOf_eq hplain.2.1 hplain.2.2] at hbegin
    exact hleaf.eq_of_start hnest hother (hstart.symm.trans hbegin)

/-- Nodes with one span have one mark, unless they are one statement. -/
theorem unique (hnest : tree.WellNested source) (hlead : tree.Leading source)
    (hleaf : IsLeaf tree leaf) (hother : IsLeaf tree other) (h : Marks leaf node)
    (h' : Marks other inner) (hnode : Within (root tree) node) (hinner : Within (root tree) inner)
    (hspan : inner.span = node.span) :
    leaf = other ∨ inner = node ∧ node.kind = .expressionStatement := by
  by_cases hsame : inner = node
  · subst hsame
    by_cases hkind : inner.kind = .expressionStatement
    · exact .inr ⟨rfl, hkind⟩
    · have hstart := h.start_eq hlead hleaf.within hkind
      have hstart' := h'.start_eq hlead hother.within hkind
      exact .inl (hleaf.eq_of_start hnest hother (hstart.symm.trans hstart'))
  · have hpos := hleaf.nonempty
    have hleafin := hnest.span_le hnode (h.within hleaf.within)
    rcases hnest.compare hnode hinner with hin | hin | hsep | hsep
    · exact .inl (h.eq_of_within hnest hlead hleaf hother h' hnode hin hsame hspan)
    · exact .inl (h'.eq_of_within hnest hlead hother hleaf h hinner hin (Ne.symm hsame)
        hspan.symm).symm
    · rw [hspan] at hsep
      omega
    · rw [hspan] at hsep
      omega

end Marks

/-! ## Marked changes -/

/-- The change goes back to the leaf: it is at a site that the leaf marks, and takes it out if that
is a statement. -/
def Marked (source : Source) (tree : Tree) (leaf : Node) (change : Change) : Prop :=
  ∃ node, Site source tree node (change.span source) ∧ Marks leaf node ∧
    (node.kind = .expressionStatement → change = .deleteStatement node.span)

/-- What is asked for because of a name goes back to the name. -/
theorem Request.About.marked {source : Source} {tree : Tree} {reference node : Node}
    {change : Change} (habout : About reference change node) (href : Within (root tree) reference)
    (hname : reference.kind.isName = true) (hsite : Site source tree node (change.span source)) :
    Marked source tree reference change := by
  refine ⟨node, hsite, ?_⟩
  cases habout with
  | head hhead =>
      refine ⟨.head hname hhead, ?_⟩
      intro hstatement
      rcases hhead.kind href with rfl | hkind | hkind <;> simp_all [Kind.isName]
  | statement hhead hmem hkind hdelete =>
      exact ⟨.statement hname hhead hmem hkind, fun _ => hdelete⟩

/-- Changes of one span go back to one leaf, or are the same. -/
theorem Marked.unique {source : Source} {tree : Tree} {leaf other : Node} {change change' : Change}
    (hnest : tree.WellNested source) (hlead : tree.Leading source) (hleaf : IsLeaf tree leaf)
    (hother : IsLeaf tree other) (h : Marked source tree leaf change)
    (h' : Marked source tree other change') (hspan : change.span source = change'.span source) :
    leaf = other ∨ change = change' := by
  obtain ⟨node, hsite, hmarks, hstatement⟩ := h
  obtain ⟨inner, hsite', hmarks', hstatement'⟩ := h'
  have hsame : inner.span = node.span :=
    hsite'.grown.inner_unique (hspan ▸ hsite.grown) hsite'.trimmed hsite.trimmed
  rcases hmarks.unique hnest hlead hleaf hother hmarks' hsite.within hsite'.within hsame with
    heq | ⟨rfl, hkind⟩
  · exact .inl heq
  · exact .inr ((hstatement hkind).trans (hstatement' hkind).symm)

end JestMigration
