/-
# `Proofs.Syntax.Nesting` — what a parser promises of its trees

A tree is a value of any shape; the trees that a parser gives are nested.
`Tree.Nested` and `Tree.WellNested` state that, `Tree.Trimmed` that the nodes
which are edited do not begin or end with blanks, `Tree.Readable` that no node
splits a character, `Tree.Lexical` that names are whole words, and
`Tree.Leading` what nodes begin with.  They are read off the nodes of a tree one
by one and can be checked by running them.

  * `Nested.span_le`: what is within a node is within its span;
  * `WellNested.separate`: nodes that branch off from each other share no byte;
  * `WellNested.exists_shelter`: a statement in a list below the root stands
    between braces, and so does the line that is deleted with it.
-/
import JestMigration.Assertion
import JestMigration.Proofs.Source.Growth
import JestMigration.Proofs.Source.Word
import JestMigration.Proofs.Syntax.Position
import JestMigration.Scope.Pattern

namespace JestMigration

/-! ## The promises -/

/-- A token: its text is its kind. -/
def Node.isToken (source : Source) (text : String) (node : Node) : Bool :=
  node.kind == .other text && node.text source == text

/-- The first child is an opening brace at the very beginning, the last a closing one at the end. -/
def Node.isBraced (source : Source) (node : Node) : Bool :=
  (node.children.head?.any fun brace =>
      brace.isToken source "\x7b" && brace.span.start == node.span.start) &&
    node.children.getLast?.any fun brace =>
      brace.isToken source "\x7d" && brace.span.stop == node.span.stop

/-- Spans are nested as the tree is, and children stand in order. -/
structure Tree.Nested (tree : Tree) : Prop where
  forward : ∀ node ∈ (Node.root tree).nodes, node.span.start ≤ node.span.stop
  inside : ∀ node ∈ (Node.root tree).nodes, ∀ child ∈ node.children,
    node.span.contains child.span = true
  ordered : ∀ node ∈ (Node.root tree).nodes,
    node.children.Pairwise fun a b => a.span.stop ≤ b.span.start

/-- Spans are nested as the tree is, and lists of statements below the root are held by braces. -/
structure Tree.WellNested (source : Source) (tree : Tree) : Prop where
  forward : ∀ node ∈ (Node.root tree).nodes, node.span.start ≤ node.span.stop
  inside : ∀ node ∈ (Node.root tree).nodes, ∀ child ∈ node.children,
    node.span.contains child.span = true
  ordered : ∀ node ∈ (Node.root tree).nodes,
    node.children.Pairwise fun a b => a.span.stop ≤ b.span.start
  braced : ∀ node ∈ (Node.root tree).nodes,
    node.kind = .statementBlock ∨ node.kind = .switchBody → node.isBraced source = true
  cases : ∀ node ∈ (Node.root tree).nodes, node.kind = .switchCase ∨ node.kind = .switchDefault →
    (node.parent?.any fun body => body.kind == .switchBody) = true
  program : ∀ node ∈ (Node.root tree).nodes, node.kind = .program → node.id = 0

/-- Names, member expressions, calls and statements. -/
def Kind.isSolid : Kind → Bool
  | .identifier | .memberExpression | .callExpression | .importStatement | .lexicalDeclaration
  | .variableDeclaration | .expressionStatement => true
  | _ => false

/-- The parameters of a function and the list they stand in. -/
def Node.parameterNodes (function : Node) : List Node :=
  (function.child? .parameters).toList ++ function.parameters

/-- Names, member expressions, calls, statements and parameters begin and end with a visible
byte. -/
structure Tree.Trimmed (source : Source) (tree : Tree) : Prop where
  solid : ∀ node ∈ (Node.root tree).nodes, node.kind.isSolid = true →
    source.isTrimmed node.span = true
  parameters : ∀ function ∈ (Node.root tree).nodes, function.kind.isCallbackLiteral = true →
    ∀ parameter ∈ function.parameterNodes, source.isTrimmed parameter.span = true

/-- Every node has a text: spans begin and end between characters. -/
def Tree.Readable (source : Source) (tree : Tree) : Prop :=
  ∀ node ∈ (Node.root tree).nodes, (source.slice? node.span).isSome

/-- The kinds of node that can refer to a name. -/
def Kind.isName : Kind → Bool
  | .identifier | .shorthandProperty => true
  | _ => false

/-- Names have nothing below them. -/
def Tree.LeafNames (tree : Tree) : Prop :=
  ∀ node ∈ (Node.root tree).nodes, node.kind.isName = true → node.children = []

/-- Names are whole words with nothing below them, and argument lists are not empty: they have their
parentheses. -/
structure Tree.Lexical (source : Source) (tree : Tree) : Prop where
  leaf : tree.LeafNames
  word : ∀ node ∈ (Node.root tree).nodes, node.kind.isName = true →
    source.isWord node.span = true
  arguments : ∀ node ∈ (Node.root tree).nodes, node.kind = .arguments →
    node.span.start < node.span.stop

/-- The first child is the given token, at the very beginning and with nothing below it. -/
def Node.isOpened (source : Source) (text : String) (node : Node) : Bool :=
  node.children.head?.any fun token =>
    token.isToken source text && token.span.start == node.span.start && token.children.isEmpty

/-- Calls begin with their callee and member expressions with their object, names are leaves, and
lists of parameters and object patterns begin with their bracket. -/
structure Tree.Leading (source : Source) (tree : Tree) : Prop where
  calls : ∀ node ∈ (Node.root tree).nodes, node.kind = .callExpression →
    ∀ callee ∈ node.child? .function, callee.span.start = node.span.start
  members : ∀ node ∈ (Node.root tree).nodes, node.kind = .memberExpression →
    ∀ object ∈ node.child? .object, object.span.start = node.span.start
  names : ∀ node ∈ (Node.root tree).nodes, node.kind.isName = true ∨ node.kind = .shorthandPattern →
    node.children = [] ∧ node.span.start < node.span.stop
  lists : ∀ function ∈ (Node.root tree).nodes, function.kind.isCallbackLiteral = true →
    ∀ list ∈ function.child? .parameters,
      list.kind = .other "formal_parameters" ∧ list.isOpened source "(" = true
  patterns : ∀ node ∈ (Node.root tree).nodes, node.kind = .objectPattern →
    node.isOpened source "\x7b" = true

instance (source : Source) (tree : Tree) : Decidable (tree.Readable source) :=
  -- The ends of a span are checked, and its text is not built.
  decidable_of_iff
    (∀ node ∈ (Node.root tree).nodes, node.span.start ≤ node.span.stop ∧
      source.isBoundary node.span.start = true ∧ source.isBoundary node.span.stop = true)
    (forall₂_congr fun _ _ => Source.isSome_slice?_iff.symm)

instance (tree : Tree) : Decidable tree.Nested :=
  decidable_of_iff
    ((∀ node ∈ (Node.root tree).nodes, node.span.start ≤ node.span.stop) ∧
      (∀ node ∈ (Node.root tree).nodes, ∀ child ∈ node.children,
        node.span.contains child.span = true) ∧
      ∀ node ∈ (Node.root tree).nodes,
        node.children.Pairwise fun a b => a.span.stop ≤ b.span.start)
    ⟨fun ⟨h₁, h₂, h₃⟩ => ⟨h₁, h₂, h₃⟩, fun h => ⟨h.forward, h.inside, h.ordered⟩⟩

instance (source : Source) (tree : Tree) : Decidable (tree.WellNested source) :=
  decidable_of_iff
    ((∀ node ∈ (Node.root tree).nodes, node.span.start ≤ node.span.stop) ∧
      (∀ node ∈ (Node.root tree).nodes, ∀ child ∈ node.children,
        node.span.contains child.span = true) ∧
      (∀ node ∈ (Node.root tree).nodes,
        node.children.Pairwise fun a b => a.span.stop ≤ b.span.start) ∧
      (∀ node ∈ (Node.root tree).nodes,
        node.kind = .statementBlock ∨ node.kind = .switchBody → node.isBraced source = true) ∧
      (∀ node ∈ (Node.root tree).nodes, node.kind = .switchCase ∨ node.kind = .switchDefault →
        (node.parent?.any fun body => body.kind == .switchBody) = true) ∧
      ∀ node ∈ (Node.root tree).nodes, node.kind = .program → node.id = 0)
    ⟨fun ⟨h₁, h₂, h₃, h₄, h₅, h₆⟩ => ⟨h₁, h₂, h₃, h₄, h₅, h₆⟩,
      fun h => ⟨h.forward, h.inside, h.ordered, h.braced, h.cases, h.program⟩⟩

instance (source : Source) (tree : Tree) : Decidable (tree.Trimmed source) :=
  decidable_of_iff
    ((∀ node ∈ (Node.root tree).nodes, node.kind.isSolid = true →
        source.isTrimmed node.span = true) ∧
      ∀ function ∈ (Node.root tree).nodes, function.kind.isCallbackLiteral = true →
        ∀ parameter ∈ function.parameterNodes, source.isTrimmed parameter.span = true)
    ⟨fun ⟨h₁, h₂⟩ => ⟨h₁, h₂⟩, fun h => ⟨h.solid, h.parameters⟩⟩

instance (tree : Tree) : Decidable tree.LeafNames :=
  inferInstanceAs (Decidable (∀ node ∈ (Node.root tree).nodes, node.kind.isName = true →
    node.children = []))

instance (source : Source) (tree : Tree) : Decidable (tree.Lexical source) :=
  decidable_of_iff
    (tree.LeafNames ∧
      (∀ node ∈ (Node.root tree).nodes, node.kind.isName = true →
        source.isWord node.span = true) ∧
      ∀ node ∈ (Node.root tree).nodes, node.kind = .arguments → node.span.start < node.span.stop)
    ⟨fun ⟨h₁, h₂, h₃⟩ => ⟨h₁, h₂, h₃⟩, fun h => ⟨h.leaf, h.word, h.arguments⟩⟩

instance (source : Source) (tree : Tree) : Decidable (tree.Leading source) :=
  decidable_of_iff
    ((∀ node ∈ (Node.root tree).nodes, node.kind = .callExpression →
        ∀ callee ∈ node.child? .function, callee.span.start = node.span.start) ∧
      (∀ node ∈ (Node.root tree).nodes, node.kind = .memberExpression →
        ∀ object ∈ node.child? .object, object.span.start = node.span.start) ∧
      (∀ node ∈ (Node.root tree).nodes,
        node.kind.isName = true ∨ node.kind = .shorthandPattern →
          node.children = [] ∧ node.span.start < node.span.stop) ∧
      (∀ function ∈ (Node.root tree).nodes, function.kind.isCallbackLiteral = true →
        ∀ list ∈ function.child? .parameters,
          list.kind = .other "formal_parameters" ∧ list.isOpened source "(" = true) ∧
      ∀ node ∈ (Node.root tree).nodes, node.kind = .objectPattern →
        node.isOpened source "\x7b" = true)
    ⟨fun ⟨h₁, h₂, h₃, h₄, h₅⟩ => ⟨h₁, h₂, h₃, h₄, h₅⟩,
      fun h => ⟨h.calls, h.members, h.names, h.lists, h.patterns⟩⟩

namespace Node

/-- `Shelter source statement block`: a block in braces around a statement.  The line that is
deleted with the statement stays inside, and whatever is around the statement is around the block,
apart from the case of a `switch` in between. -/
structure Shelter (source : Source) (statement block : Node) : Prop where
  within : Within block statement
  start_le : statement.span.start ≤ source.size
  grown : ∀ {outer : Span}, source.Grown statement.span outer → block.span.contains outer = true
  around : ∀ {node : Node}, Within node statement → node = statement ∨ Within node block ∨
    node.kind = .switchCase ∨ node.kind = .switchDefault

theorem isStatementList_iff {kind : Kind} : Assertion.isStatementList kind = true ↔
    kind = .statementBlock ∨ kind = .program ∨ kind = .switchCase ∨ kind = .switchDefault := by
  cases kind <;> simp [Assertion.isStatementList]

/-! ## Texts and tokens -/

/-- Whether a span is trimmed is seen from its text. -/
theorem isTrimmed_of_slice? {source : Source} {span : Span} {text : String}
    (h : source.slice? span = some text) :
    source.isTrimmed span = (Source.mk text).isTrimmed (Source.mk text).whole := by
  have hsize := Source.size_of_slice? h
  have hle := (Source.bounds_of_slice? h).1
  rcases Nat.lt_or_ge span.start span.stop with hlt | hge
  · have hfirst := Source.byte?_of_slice? h (i := 0) (by omega)
    have hlast := Source.byte?_of_slice? h (i := span.stop - span.start - 1) (by omega)
    rw [show span.start + (span.stop - span.start - 1) = span.stop - 1 by omega, ← hsize] at hlast
    have hpos : 0 < (Source.mk text).size := by omega
    simp only [Source.isTrimmed, Source.whole, hlt, hpos, ← hlast, ← hfirst, Nat.add_zero]
  · have hnot : ¬ span.start < span.stop := by omega
    have hzero : ¬ 0 < (Source.mk text).size := by omega
    simp only [Source.isTrimmed, Source.whole, hnot, hzero, decide_false, Bool.false_and]

theorem isTrimmed_of_text {source : Source} {node : Node}
    (h : (Source.mk (node.text source)).isTrimmed (Source.mk (node.text source)).whole = true) :
    source.isTrimmed node.span = true := by
  have hne : source.read node.span ≠ "" := by
    intro hempty
    rw [text, hempty] at h
    exact absurd h (by decide)
  rw [isTrimmed_of_slice? (Source.slice?_of_read_ne hne)]
  exact h

/-- Nodes with one text are trimmed both or neither. -/
theorem isTrimmed_of_text_eq {source : Source} {a b : Node} (h : a.text source = b.text source)
    (hne : b.text source ≠ "") : source.isTrimmed a.span = source.isTrimmed b.span := by
  have ha : source.slice? a.span = some (a.text source) :=
    Source.slice?_of_read_ne (show a.text source ≠ "" from h ▸ hne)
  have hb : source.slice? b.span = some (b.text source) := Source.slice?_of_read_ne hne
  rw [isTrimmed_of_slice? ha, isTrimmed_of_slice? hb, h]

theorem slice?_of_isToken {source : Source} {text : String} {node : Node}
    (h : node.isToken source text = true) (hne : text ≠ "") :
    source.slice? node.span = some text := by
  simp only [isToken, Bool.and_eq_true, beq_iff_eq] at h
  have hread : source.read node.span = text := h.2
  rw [← hread]
  exact Source.slice?_of_read_ne (hread ▸ hne)

theorem kind_of_isToken {source : Source} {text : String} {node : Node}
    (h : node.isToken source text = true) : node.kind = .other text := by
  simp only [isToken, Bool.and_eq_true, beq_iff_eq] at h
  exact h.1

/-- A token of one byte covers that byte and no other. -/
theorem byte?_of_isToken {source : Source} {text : String} {node : Node} {byte : UInt8}
    (h : node.isToken source text = true) (hsize : (Source.mk text).size = 1)
    (hbyte : (Source.mk text).byte? 0 = some byte) :
    node.span.stop = node.span.start + 1 ∧ source.byte? node.span.start = some byte := by
  have hne : text ≠ "" := by
    rintro rfl
    exact absurd hsize (by decide)
  have hslice := slice?_of_isToken h hne
  have hlen := Source.size_of_slice? hslice
  have hget := Source.byte?_of_slice? hslice (i := 0) (by omega)
  exact ⟨by omega, by rw [← hbyte, ← hget, Nat.add_zero]⟩

end Node

/-! ## Spans follow the tree -/

/-- What is within a node is within its span. -/
theorem Tree.Nested.span_le {tree : Tree} {a b : Node} (h : tree.Nested)
    (ha : Node.Within (Node.root tree) a) (hab : Node.Within a b) :
    a.span.start ≤ b.span.start ∧ b.span.stop ≤ a.span.stop := by
  induction hab with
  | self => exact ⟨Nat.le_refl _, Nat.le_refl _⟩
  | @child parent child hparent hmem ih =>
      have hin := h.inside parent (Node.mem_nodes_of_within (ha.trans hparent)) child hmem
      obtain ⟨hstart, hstop⟩ := Span.contains_iff.mp hin
      omega

namespace Tree.WellNested

variable {source : Source} {tree : Tree} {a b : Node}

open Node

theorem nested (h : tree.WellNested source) : tree.Nested :=
  ⟨h.forward, h.inside, h.ordered⟩

theorem start_le_stop (h : tree.WellNested source) (ha : Within (root tree) a) :
    a.span.start ≤ a.span.stop :=
  h.forward a (mem_nodes_of_within ha)

theorem span_le (h : tree.WellNested source) (ha : Within (root tree) a) (hab : Within a b) :
    a.span.start ≤ b.span.start ∧ b.span.stop ≤ a.span.stop :=
  h.nested.span_le ha hab

theorem contains (h : tree.WellNested source) (ha : Within (root tree) a) (hab : Within a b) :
    a.span.contains b.span = true :=
  Span.contains_iff.mpr (h.span_le ha hab)

/-- Different children of a node share no byte. -/
theorem separate_children (h : tree.WellNested source) {parent : Node}
    (hparent : Within (root tree) parent) (ha : a ∈ parent.children) (hb : b ∈ parent.children)
    (hne : a ≠ b) : a.span.stop ≤ b.span.start ∨ b.span.stop ≤ a.span.start :=
  or_of_pairwise (h.ordered parent (mem_nodes_of_within hparent)) ha hb hne

/-- Nodes that branch off from each other share no byte. -/
theorem separate (h : tree.WellNested source) (hab : Apart (root tree) a b) :
    a.span.stop ≤ b.span.start ∨ b.span.stop ≤ a.span.start := by
  obtain ⟨fork, x, y, hfork, hx, hy, hne, hxa, hyb⟩ := hab
  have hsep := h.separate_children hfork hx hy hne
  have ha := h.span_le (hfork.child hx) hxa
  have hb := h.span_le (hfork.child hy) hyb
  omega

/-- Of two nodes one is within the other, or they share no byte. -/
theorem compare (h : tree.WellNested source) (ha : Within (root tree) a)
    (hb : Within (root tree) b) : Within a b ∨ Within b a ∨
      a.span.stop ≤ b.span.start ∨ b.span.stop ≤ a.span.start := by
  rcases ha.compare hb with hab | hba | hapart
  · exact .inl hab
  · exact .inr (.inl hba)
  · exact .inr (.inr (h.separate hapart))

/-! ## Statements between braces -/

/-- The braces of a block enclose its other children. -/
theorem bounds_of_isBraced (h : tree.WellNested source) {block child : Node}
    (hblock : Within (root tree) block) (hbraced : block.isBraced source = true)
    (hmem : child ∈ block.children) (hopen : child.kind ≠ .other "\x7b")
    (hclose : child.kind ≠ .other "\x7d") :
    (block.span.start < child.span.start ∧ source.byte? block.span.start = some 123) ∧
      child.span.stop < block.span.stop ∧ source.byte? (block.span.stop - 1) = some 125 := by
  simp only [isBraced, Bool.and_eq_true, Option.any_eq_true, beq_iff_eq] at hbraced
  obtain ⟨⟨first, hfirst, htoken, hstart⟩, last, hlast, htoken', hstop⟩ := hbraced
  have hspan := byte?_of_isToken htoken (by decide) (show _ = some 123 by decide)
  have hspan' := byte?_of_isToken htoken' (by decide) (show _ = some 125 by decide)
  have hpairwise := h.ordered block (mem_nodes_of_within hblock)
  constructor
  · obtain ⟨rest, hrest⟩ := List.head?_eq_some_iff.mp hfirst
    rw [hrest] at hmem hpairwise
    have hafter : child ∈ rest := by
      rcases List.mem_cons.mp hmem with rfl | hmem
      · exact absurd (kind_of_isToken htoken) hopen
      · exact hmem
    have hle := (List.pairwise_cons.mp hpairwise).1 child hafter
    exact ⟨by omega, by rw [← hstart]; exact hspan.2⟩
  · obtain ⟨before, hbefore⟩ := List.getLast?_eq_some_iff.mp hlast
    rw [hbefore] at hmem hpairwise
    have hahead : child ∈ before := by
      rcases List.mem_append.mp hmem with hmem | hmem
      · exact hmem
      · rw [List.mem_singleton.mp hmem] at hclose
        exact absurd (kind_of_isToken htoken') hclose
    have hle := (List.pairwise_append.mp hpairwise).2.2 child hahead last (by simp)
    have hbyte : block.span.stop - 1 = last.span.start := by omega
    exact ⟨by omega, by rw [hbyte]; exact hspan'.2⟩

/-- A statement that is, or is in, a child of a braced block is sheltered there. -/
theorem shelter_of_isBraced (h : tree.WellNested source) {statement item block : Node}
    (hblock : Within (root tree) block) (hbraced : block.isBraced source = true)
    (hmem : item ∈ block.children) (hopen : item.kind ≠ .other "\x7b")
    (hclose : item.kind ≠ .other "\x7d") (hitem : Within item statement)
    (haround : ∀ {node : Node}, Within node statement → node = statement ∨ Within node block ∨
      node.kind = .switchCase ∨ node.kind = .switchDefault) :
    Shelter source statement block where
  within := (Within.of_mem_children hmem).trans hitem
  start_le := by
    obtain ⟨_, hstop, hbyte⟩ := h.bounds_of_isBraced hblock hbraced hmem hopen hclose
    have hspan := h.span_le (hblock.child hmem) hitem
    have hforward := h.start_le_stop ((hblock.child hmem).trans hitem)
    have hsize := Source.lt_size_of_byte? hbyte
    omega
  grown := by
    intro outer hgrown
    obtain ⟨⟨hstart, hbyte⟩, hstop, hbyte'⟩ := h.bounds_of_isBraced hblock hbraced hmem hopen hclose
    have hspan := h.span_le (hblock.child hmem) hitem
    have hleft := hgrown.le_start (by omega) hbyte (by decide)
    have hright := hgrown.stop_le (by omega) hbyte' (by decide)
    exact Span.contains_iff.mpr ⟨by omega, by omega⟩
  around := haround

/-- A statement in a list below the root is held by braces: those of the list, or those of the
`switch` body around it. -/
theorem exists_shelter (h : tree.WellNested source) {statement list : Node}
    (hstatement : Within (root tree) statement) (hkind : statement.kind = .expressionStatement)
    (hparent : statement.parent? = some list) (hlist : Assertion.isStatementList list.kind = true)
    (hroot : list ≠ root tree) :
    ∃ block, Within (root tree) block ∧ Shelter source statement block := by
  obtain ⟨hmem, hwithin⟩ := mem_children_of_parent? hstatement hparent
  have hnode := mem_nodes_of_within hwithin
  rcases isStatementList_iff.mp hlist with hblock | hprogram | hcase
  · refine ⟨list, hwithin, h.shelter_of_isBraced hwithin (h.braced list hnode (.inl hblock)) hmem
      (by simp [hkind]) (by simp [hkind]) .self ?_⟩
    intro node hnode
    rcases hnode.of_child hmem with rfl | hup
    · exact .inl rfl
    · exact .inr (.inl hup)
  · exact absurd (hwithin.eq_of_id .self (h.program list hnode hprogram)) hroot
  · have hbody := h.cases list hnode hcase
    simp only [Option.any_eq_true, beq_iff_eq] at hbody
    obtain ⟨body, hparent', hbody⟩ := hbody
    obtain ⟨hmem', hwithin'⟩ := mem_children_of_parent? hwithin hparent'
    have hbraced := h.braced body (mem_nodes_of_within hwithin') (.inr hbody)
    have hne : ∀ text, list.kind ≠ .other text := by
      rcases hcase with hcase | hcase <;> simp [hcase]
    refine ⟨body, hwithin', h.shelter_of_isBraced hwithin' hbraced hmem' (hne _) (hne _)
      (.of_mem_children hmem) ?_⟩
    intro node hnode
    rcases hnode.of_child hmem with rfl | hup
    · exact .inl rfl
    · rcases hup.of_child hmem' with rfl | hup
      · exact .inr (.inr hcase)
      · exact .inr (.inl hup)

/-- An argument stays inside its call, and does not hold all of it: the callee shares no byte with
the argument list. -/
theorem argument_bounds (h : tree.WellNested source) {call callee list argument : Node}
    (hcall : Within (root tree) call) (hfunction : call.child? .function = some callee)
    (hlt : callee.span.start < callee.span.stop) (hlist : call.child? .arguments = some list)
    (hargument : argument ∈ list.children) :
    call.span.contains argument.span = true ∧ argument.span.contains call.span = false := by
  have hcallee := mem_children_of_child? hfunction
  have hmem := mem_children_of_child? hlist
  have hinlist := h.span_le (hcall.child hmem) (.of_mem_children hargument)
  have hincall := h.span_le hcall (.of_mem_children hcallee)
  have hsep := h.separate_children hcall hcallee hmem (child?_ne (by decide) hfunction hlist)
  refine ⟨h.contains hcall ((Within.of_mem_children hmem).child hargument), ?_⟩
  rw [← Bool.not_eq_true, Span.contains_iff]
  omega

end Tree.WellNested

/-! ## A file that keeps the promises -/

namespace Sample

/-- A test with a completion callback and a test inside it, and a test after it. -/
def source : Source where
  text := "import test from 'ava';\n\ntest.cb('outer', t => \x7b\n" ++
    "  test('inner', t => \x7b t.is(1, 2); \x7d);\n  t.end();\n\x7d);\n\n" ++
    "test('last', t => \x7b\n  t.pass();\n\x7d);\n"

/-- A named node. -/
def node (kind : Kind) (start stop : Nat) (field? : Option Field) (children : List Tree) : Tree :=
  .node ⟨kind, true, ⟨start, stop⟩, field?⟩ children

/-- A token, which has its text as kind. -/
def token (text : String) (start stop : Nat) : Tree :=
  .node ⟨.other text, false, ⟨start, stop⟩, none⟩ []

/-- An identifier. -/
def name (start stop : Nat) (field? : Option Field) : Tree :=
  node .identifier start stop field? []

/-- A string literal. -/
def quoted (start stop : Nat) (field? : Option Field) : Tree :=
  node .string start stop field?
    [ token "'" start (start + 1),
      node (.other "string_fragment") (start + 1) (stop - 1) none [],
      token "'" (stop - 1) stop ]

/-- A member of a name, as a callee. -/
def member (start dot stop : Nat) : Tree :=
  node .memberExpression start stop (some .function)
    [ name start dot (some .object), token "." dot (dot + 1),
      node .propertyIdentifier (dot + 1) stop (some .property) [] ]

/-- A statement that is a call, with the given callee and arguments. -/
def statement (start stop : Nat) (callee : Tree) (arguments : List Tree) : Tree :=
  let opening := callee.label.span.stop
  node .expressionStatement start stop none
    [ node .callExpression start (stop - 1) none
        [ callee,
          node .arguments opening (stop - 1) (some .arguments)
            (token "(" opening (opening + 1) :: arguments ++ [token ")" (stop - 2) (stop - 1)]) ],
      token ";" (stop - 1) stop ]

/-- A function of one parameter with a block for its body. -/
def arrow (start stop : Nat) (statements : List Tree) : Tree :=
  node .arrowFunction start stop none
    [ name start (start + 1) (some .parameter), token "=>" (start + 2) (start + 4),
      node .statementBlock (start + 5) stop (some .body)
        (token "\x7b" (start + 5) (start + 6) :: statements ++ [token "\x7d" (stop - 1) stop]) ]

/-- The tree of the file. -/
def tree : Tree :=
  node .program 0 140 none
    [ node .importStatement 0 23 none
        [ token "import" 0 6, node .importClause 7 11 none [name 7 11 none], token "from" 12 16,
          quoted 17 22 (some .source), token ";" 22 23 ],
      statement 25 102 (member 25 29 32)
        [ quoted 33 40 none, token "," 40 41,
          arrow 42 100
            [ statement 51 87 (name 51 55 (some .function))
                [ quoted 56 63 none, token "," 63 64,
                  arrow 65 85
                    [ statement 72 83 (member 72 73 76)
                        [ node (.other "number") 77 78 none [], token "," 78 79,
                          node (.other "number") 80 81 none [] ] ] ],
              statement 90 98 (member 90 91 95) [] ] ],
      statement 104 139 (name 104 108 (some .function))
        [ quoted 109 115 none, token "," 115 116,
          arrow 117 137 [statement 126 135 (member 126 127 132) []] ] ]

example : tree.WellNested source ∧ tree.Trimmed source ∧ tree.Readable source ∧
    tree.Lexical source ∧ tree.Leading source := by
  decide +kernel

end Sample

end JestMigration
