/-
# `Proofs.Scope.Visit` — scopes handed down and scopes found from below

While the table is built, each node is visited with a scope that is handed down
to it; afterwards, the scope of a node is found by going up from it.  `Calls`
lists the visits with their arguments: the table as it was, the node and the
scope.  A visit agrees with the finished table (`Agrees`): a node that opens no
scope is in the one it was visited with, and a node that opens one is in that,
with the other for its parent.

So a name is declared where going up finds it: that of a lexical declaration in
the scope of the declaration, that of a variable declaration in the nearest
function around, a parameter in the scope of its function.
-/
import JestMigration.Proofs.Scope.Binders
import JestMigration.Proofs.Scope.Lookup
import JestMigration.Proofs.Scope.Resolve

namespace JestMigration

namespace ScopeTable

open Node

variable {source : Source} {tree : Tree} {table : ScopeTable} {node child name : Node}
  {scope inner : ScopeId}

/-! ## The visits of a tree -/

/-- Visits nodes one after the other, all from the same scope. -/
def visitAll (source : Source) (table : ScopeTable) (nodes : List Node) (scope : ScopeId) :
    ScopeTable :=
  nodes.foldl (fun current child => visit source current child scope) table

theorem visitAll_append (table : ScopeTable) (before after : List Node) (scope : ScopeId) :
    visitAll source table (before ++ after) scope =
      visitAll source (visitAll source table before scope) after scope :=
  List.foldl_append

/-- `Calls source tree table node scope`: while the table of the tree is built, `node` is visited
from `scope`, with the table as it is then. -/
inductive Calls (source : Source) (tree : Tree) : ScopeTable → Node → ScopeId → Prop
  | top {before after : List Node} {child : Node} :
      (root tree).children = before ++ child :: after →
      Calls source tree
        (visitAll source (ScopeTable.openScope {} (root tree) .program none) before programScope)
        child programScope
  | down {table : ScopeTable} {node child : Node} {scope : ScopeId} {before after : List Node} :
      Calls source tree table node scope → visitedChildren node = before ++ child :: after →
      Calls source tree
        (visitAll source (table.enter source node scope).1 before
          (table.enter source node scope).2)
        child (table.enter source node scope).2

theorem Calls.isEntered (h : Calls source tree table node scope) : IsEntered tree node := by
  induction h with
  | top hsplit => exact ⟨_, by rw [hsplit]; simp, .self⟩
  | down _ hsplit ih => exact ih.child (by rw [hsplit]; simp)

/-- The visit comes to every node that is not inside an import. -/
theorem exists_calls (h : IsEntered tree node) : ∃ table scope, Calls source tree table node scope := by
  obtain ⟨top, hmem, hreached⟩ := h
  obtain ⟨before, after, hsplit⟩ := List.append_of_mem hmem
  have hstart : ∃ table scope, Calls source tree table top scope := ⟨_, _, .top hsplit⟩
  clear hmem hsplit
  induction hreached with
  | self => exact hstart
  | step hmem _ ih =>
      obtain ⟨table, scope, hcalls⟩ := hstart
      obtain ⟨before, after, hsplit⟩ := List.append_of_mem hmem
      exact ih ⟨_, _, hcalls.down hsplit⟩

/-! ## A visit among its neighbours -/

/-- Visiting some children of a node in order: at each of them the table is sound and the scope is
that of the node, and what a visit has put in stays. -/
theorem visitAll_split {before after : List Node} (hnode : Within (root tree) node)
    (hmem : ∀ other ∈ before ++ child :: after, other ∈ node.children)
    (hordered : (before ++ child :: after).Pairwise fun a b => a.id + a.tree.size ≤ b.id)
    (h : Sound source tree (node.id + 1) table) (hinner : table.nearest? node.lineage = some inner) :
    (Sound source tree child.id (visitAll source table before inner) ∧
      (visitAll source table before inner).nearest? (child.above.map Prod.fst) = some inner) ∧
    Extends (child.id + child.tree.size)
      (visit source (visitAll source table before inner) child inner)
      (visitAll source table (before ++ child :: after) inner) := by
  have hchild := hmem child (by simp)
  have hbounds := id_bounds_of_mem_children hchild
  obtain ⟨hbefore, hrest, hfirst⟩ := List.pairwise_append.mp hordered
  obtain ⟨hlater, hafter⟩ := List.pairwise_cons.mp hrest
  have hmem' : ∀ other ∈ before, other ∈ node.children :=
    fun other hother => hmem other (List.mem_append_left _ hother)
  have hmem'' : ∀ other ∈ after, other ∈ node.children :=
    fun other hother => hmem other (List.mem_append_right _ (List.mem_cons_of_mem _ hother))
  -- The children before end where `child` begins.
  obtain ⟨hsound, hgrows, _⟩ :
      Sound source tree child.id (visitAll source table before inner) ∧ _ :=
    visited_foldl hnode (fun other hother _ => visited_child hnode (hmem' other hother)) hmem'
      hbefore
      (fun other hother => ⟨(id_bounds_of_mem_children (hmem' other hother)).1,
        hfirst other hother child List.mem_cons_self⟩)
      hbounds.1 (Nat.lt_succ_self _) h hinner
  have hstill : (visitAll source table before inner).nearest? node.lineage = some inner := by
    refine (nearest?_congr ?_).trans hinner
    exact fun id hid => hgrows.opened id (Nat.lt_succ_of_le (le_of_mem_lineage hnode hid))
  have hvisit := visited_child hnode hchild hsound hstill
  refine ⟨⟨hsound, by rw [above_eq_lineage hchild, hstill]⟩, ?_⟩
  -- The children after begin where it ends.
  have hlast : (visit source (visitAll source table before inner) child inner).nearest?
      node.lineage = some inner := by
    refine (nearest?_congr ?_).trans hstill
    intro id hid
    have hle := le_of_mem_lineage hnode hid
    exact hvisit.grows.opened id (by omega)
  obtain ⟨_, hgrows', _⟩ :=
    visited_foldl hnode (fun other hother _ => visited_child hnode (hmem'' other hother)) hmem''
      hafter
      (fun other hother =>
        ⟨hlater other hother, (id_bounds_of_mem_children (hmem'' other hother)).2⟩)
      hbounds.2 (by omega) hvisit.sound hlast
  rw [visitAll_append]
  exact hgrows'

/-- What is known of a visit: the table is sound up to the node, the scope is that of the nearest
node above, and what the visit puts in is there in the end. -/
structure Called (source : Source) (tree : Tree) (table : ScopeTable) (node : Node)
    (scope : ScopeId) : Prop where
  sound : Sound source tree node.id table
  near : table.nearest? (node.above.map Prod.fst) = some scope
  kept : Extends (node.id + node.tree.size) (visit source table node scope) (build source tree)

theorem Calls.called (h : Calls source tree table node scope) :
    Called source tree table node scope := by
  induction h with
  | top hsplit =>
      obtain ⟨⟨hsound, hscope⟩, hkept⟩ := visitAll_split .self (by rw [← hsplit]; simp)
        (by rw [← hsplit]; exact (root tree).children_pairwise) (sound_empty source tree) rfl
      rw [← hsplit] at hkept
      exact ⟨hsound, hscope, hkept⟩
  | @down table node child scope before after hcalls hsplit ih =>
      have hentered := hcalls.isEntered
      obtain ⟨parent, hparent⟩ := hentered.exists_parent
      obtain ⟨hstep, _⟩ := entered_contribute ih.sound hentered.within hparent ih.near
      rw [← enter_eq hparent] at hstep
      have hmem : ∀ other ∈ before ++ child :: after, other ∈ node.children := by
        rw [← hsplit]
        exact fun _ hother => mem_children_of_mem_visitedChildren hother
      obtain ⟨⟨hsound, hscope⟩, hkept⟩ := visitAll_split hentered.within hmem
        (by rw [← hsplit]; exact visitedChildren_pairwise node) hstep.sound hstep.inner
      rw [← hsplit] at hkept
      have hbounds := id_bounds_of_mem_children (hmem child (by simp))
      refine ⟨hsound, hscope, hkept.trans ?_⟩
      have hvisit := ih.kept.mono hbounds.2
      rw [visit_eq] at hvisit
      exact hvisit

/-! ## The scope of a visited node -/

/-- The scope handed on to the children: the next number if the node opens a scope, else its own. -/
theorem enter_snd {parent : Node} (hparent : node.parent? = some parent) (table : ScopeTable)
    (scope : ScopeId) : (table.enter source node scope).2 =
      if node.scopeKind?.isSome then table.scopes.size else scope := by
  rw [enter_eq hparent]
  simp only [contribute, opening]
  cases node.scopeKind? with
  | none => rfl
  | some kind => exact size_declareAll table source scope node.blockNames

theorem scopeOf_of_openedAt? (h : table.openedAt? node = some scope) :
    table.scopeOf node = scope := by
  rw [scopeOf, lineage, List.findSome?_cons, show table.opened.lookup node.id = some scope from h]
  rfl

namespace Called

/-- Entering the node is a step of the visit, and what is there after it stays. -/
theorem entered (h : Called source tree table node scope) (hentered : IsEntered tree node) :
    Entered source tree node table (table.enter source node scope).1
        (table.enter source node scope).2 ∧
      Extends (node.id + 1) (table.enter source node scope).1 (build source tree) := by
  obtain ⟨parent, hparent⟩ := hentered.exists_parent
  obtain ⟨hstep, _⟩ := entered_contribute h.sound hentered.within hparent h.near
  rw [← enter_eq hparent] at hstep
  have hpos := node.tree.size_pos
  have hmem : ∀ child ∈ visitedChildren node, child ∈ node.children :=
    fun _ hchild => mem_children_of_mem_visitedChildren hchild
  obtain ⟨_, hgrows, _⟩ := visited_foldl hentered.within
    (fun child hchild _ => visited_child hentered.within (hmem child hchild)) hmem
    (visitedChildren_pairwise node)
    (fun child hchild => id_bounds_of_mem_children (hmem child hchild))
    (show node.id + 1 ≤ node.id + node.tree.size by omega) (Nat.lt_succ_self _) hstep.sound
    hstep.inner
  rw [← visit_eq] at hgrows
  exact ⟨hstep, hgrows.trans (h.kept.mono (by omega))⟩

/-- Going up from the node finds the scope that was handed on to its children. -/
theorem scopeOf_eq (h : Called source tree table node scope) (hentered : IsEntered tree node) :
    (build source tree).scopeOf node = (table.enter source node scope).2 := by
  obtain ⟨hstep, hgrows⟩ := h.entered hentered
  have hlineage : (build source tree).nearest? node.lineage =
      (table.enter source node scope).1.nearest? node.lineage :=
    nearest?_congr fun id hid =>
      hgrows.opened id (Nat.lt_succ_of_le (le_of_mem_lineage hentered.within hid))
  rw [(sound_build source tree).nearest?_lineage hentered.within, hstep.inner] at hlineage
  exact Option.some.inj hlineage

/-- The scope of the nearest node above is the one that the node was visited from. -/
theorem nearest?_above (h : Called source tree table node scope) (hentered : IsEntered tree node) :
    (build source tree).nearest? (node.above.map Prod.fst) = some scope := by
  obtain ⟨hstep, hgrows⟩ := h.entered hentered
  refine (nearest?_congr fun id hid => ?_).trans h.near
  exact (hstep.grows.trans (hgrows.mono (Nat.le_succ _))).opened id
    (lt_of_mem_above hentered.within hid)

end Called

/-! ## What is declared stays declared -/

theorem suffix_declare (table : ScopeTable) (source : Source) (scope : ScopeId) (name : Node) :
    table.declared <:+ (table.declare source scope name).declared := by
  rcases table.declare_cases source scope name with ⟨_, heq⟩ | ⟨_, _, _, heq⟩ | ⟨_, _, heq⟩
  · exact ⟨[], by rw [heq, List.nil_append]⟩
  · rw [heq]
    exact List.suffix_cons _ _
  · rw [heq]
    exact List.suffix_cons _ _

theorem suffix_declareAll (table : ScopeTable) (source : Source) (scope : ScopeId)
    (names : List Node) : table.declared <:+ (table.declareAll source scope names).declared := by
  induction names generalizing table with
  | nil => exact List.suffix_refl _
  | cons name rest ih => exact (table.suffix_declare source scope name).trans (ih _)

theorem suffix_opening (table : ScopeTable) (node : Node) (scope : ScopeId) :
    table.declared <:+ (table.opening node scope).1.declared := by
  unfold opening
  split <;> exact List.suffix_refl _

theorem suffix_visitAll {nodes : List Node}
    (hstep : ∀ node ∈ nodes, ∀ current : ScopeTable,
      current.declared <:+ (visit source current node scope).declared) :
    table.declared <:+ (visitAll source table nodes scope).declared := by
  induction nodes generalizing table with
  | nil => exact List.suffix_refl _
  | cons node rest ih =>
      exact (hstep node List.mem_cons_self table).trans
        (ih fun other hother => hstep other (List.mem_cons_of_mem _ hother))

theorem suffix_contribute (table : ScopeTable) (source : Source) (node : Node) (scope : ScopeId) :
    table.declared <:+ (table.contribute source node scope).1.declared :=
  ((suffix_declareAll _ _ _ _).trans (suffix_opening _ _ _)).trans
    ((suffix_declareAll _ _ _ _).trans (suffix_declareAll _ _ _ _))

theorem suffix_visit (node : Node) {parent : Node} (hparent : node.parent? = some parent)
    (table : ScopeTable) (scope : ScopeId) :
    table.declared <:+ (visit source table node scope).declared := by
  rw [visit_eq, enter_eq hparent]
  refine (suffix_contribute table source node scope).trans (suffix_visitAll ?_)
  intro child hchild current
  have hmem := mem_children_of_mem_visitedChildren hchild
  exact suffix_visit child (parent?_of_mem_children hmem) current _
termination_by node.tree.size
decreasing_by exact size_lt_of_mem_children hmem

/-- The later children of a node are visited after a child, and lose nothing. -/
theorem suffix_visitAll_split {before after : List Node}
    (hmem : ∀ other ∈ before ++ child :: after, other ∈ node.children) :
    (visit source (visitAll source table before scope) child scope).declared <:+
      (visitAll source table (before ++ child :: after) scope).declared := by
  rw [visitAll_append]
  refine suffix_visitAll fun other hother current => ?_
  have hchild := hmem other (List.mem_append_right _ (List.mem_cons_of_mem _ hother))
  exact suffix_visit other (parent?_of_mem_children hchild) current _

/-- What is declared by the end of a visit is declared in the finished table. -/
theorem Calls.suffix_build (h : Calls source tree table node scope) :
    (visit source table node scope).declared <:+ (build source tree).declared := by
  induction h with
  | @top before after child hsplit =>
      have hmem : ∀ other ∈ before ++ child :: after, other ∈ (root tree).children :=
        fun _ hother => hsplit ▸ hother
      rw [build, hsplit]
      exact suffix_visitAll_split hmem
  | @down table node child scope before after _ hsplit ih =>
      have hmem : ∀ other ∈ before ++ child :: after, other ∈ node.children :=
        fun _ hother => mem_children_of_mem_visitedChildren (hsplit ▸ hother)
      rw [visit_eq source table node scope, hsplit] at ih
      exact (suffix_visitAll_split hmem).trans ih

theorem isSome_declaredAt?_of_suffix {before after : ScopeTable}
    (h : before.declared <:+ after.declared) (hsome : (before.declaredAt? name).isSome) :
    (after.declaredAt? name).isSome := by
  obtain ⟨new, hnew⟩ := h
  rw [declaredAt?, ← hnew, List.lookup_append]
  rw [declaredAt?] at hsome
  simp [hsome]

theorem isSome_declaredAt?_declareAll {names : List Node} (hname : name ∈ names)
    (hne : name.text source ≠ "") :
    ((table.declareAll source scope names).declaredAt? name).isSome := by
  induction names generalizing table with
  | nil => exact absurd hname List.not_mem_nil
  | cons first rest ih =>
      rcases List.mem_cons.mp hname with rfl | hname
      · refine isSome_declaredAt?_of_suffix (suffix_declareAll _ source scope rest) ?_
        rcases table.declare_cases source scope name with
          ⟨hempty, _⟩ | ⟨_, _, _, heq⟩ | ⟨_, _, heq⟩
        · exact absurd hempty hne
        · simp [heq, declaredAt?]
        · simp [heq, declaredAt?]
      · exact ih hname

/-- A name that a visited node introduces is declared in the finished table. -/
theorem Calls.isSome_declaredAt? (h : Calls source tree table node scope)
    (hdeclares : Declares source node name) (hne : name.text source ≠ "") :
    ((build source tree).declaredAt? name).isSome := by
  obtain ⟨parent, hparent⟩ := h.isEntered.exists_parent
  refine isSome_declaredAt?_of_suffix h.suffix_build ?_
  have hvisit : (table.contribute source node scope).1.declared <:+
      (visit source table node scope).declared := by
    rw [visit_eq, enter_eq hparent]
    refine suffix_visitAll fun child hchild current => ?_
    exact suffix_visit child
      (parent?_of_mem_children (mem_children_of_mem_visitedChildren hchild)) current _
  refine isSome_declaredAt?_of_suffix hvisit ?_
  rcases hdeclares with hname | hname | hname
  · exact isSome_declaredAt?_of_suffix (suffix_declareAll _ _ _ _)
      (isSome_declaredAt?_declareAll hname hne)
  · exact isSome_declaredAt?_of_suffix ((suffix_opening _ _ _).trans
      ((suffix_declareAll _ _ _ _).trans (suffix_declareAll _ _ _ _)))
      (isSome_declaredAt?_declareAll hname hne)
  · exact isSome_declaredAt?_declareAll hname hne

/-! ## Where names are declared -/

/-- The node stands for the binding of its text in the scope. -/
def DeclaredIn (table : ScopeTable) (source : Source) (name : Node) (scope : ScopeId) : Prop :=
  ∃ binding, table.declaredAt? name = some binding ∧
    table.boundIn? scope (name.text source) = some binding

/-- The name of a declarator stands for a binding in the scope around the declaration, or in the
function around it if the declaration is one of variables. -/
theorem Calls.exists_declaredIn (h : Calls source tree table node scope)
    (hkind : node.kind = .lexicalDeclaration ∨ node.kind = .variableDeclaration)
    (hname : name ∈ node.declaratorNames) (hne : name.text source ≠ "") :
    ∃ found, (build source tree).DeclaredIn source name found ∧
      (node.kind = .lexicalDeclaration ∧
          (build source tree).nearest? (node.above.map Prod.fst) = some found ∨
        node.kind = .variableDeclaration ∧
          (build source tree).nearestFunction? (node.above.map Prod.fst) = some found) := by
  have hentered := h.isEntered
  have hdeclares : Declares source node name := by
    rcases hkind with hkind | hkind
    · exact .inr (.inl (by simpa only [blockNames, hkind] using hname))
    · exact .inr (.inr (by simpa only [hoistedNames, hkind] using hname))
  obtain ⟨binding, hbinding⟩ := Option.isSome_iff_exists.mp (h.isSome_declaredAt? hdeclares hne)
  obtain ⟨found, hentry, htraced⟩ := (exact_build source tree).declared
    (hentered.within.trans hdeclares.within) hbinding
  refine ⟨found, ⟨binding, hbinding, (sound_build source tree).names.mpr hentry⟩, ?_⟩
  -- The binding goes back to a declaration of the name, and there is only this one.
  have honly : ∀ {other : Node}, IsEntered tree other → Declares source other name →
      other = node :=
    fun hother hdeclares =>
      eq_of_mem_declaratorNames hkind hname hentered.within hother.within hdeclares
  cases htraced with
  | own hother _ hown _ =>
      rw [honly hother (.inl hown), ownNames] at hown
      rcases hkind with hkind | hkind <;> simp [hkind] at hown
  | block hother _ hblock hnear =>
      have hsame := honly hother (.inr (.inl hblock))
      rw [hsame] at hblock hnear
      rcases hkind with hkind | hkind
      · exact .inl ⟨hkind, hnear⟩
      · rw [blockNames] at hblock
        simp [hkind] at hblock
  | hoisted hother _ hhoisted hnear =>
      have hsame := honly hother (.inr (.inr hhoisted))
      rw [hsame] at hhoisted hnear
      rcases hkind with hkind | hkind
      · rw [hoistedNames] at hhoisted
        simp [hkind] at hhoisted
      · exact .inr ⟨hkind, hnear⟩

/-- On the way out of a node that opens no scope, the nearest function above comes after blocks
only. -/
theorem exists_climbs_of_nearestFunction? (hnode : Within (root tree) node)
    (hclosed : (build source tree).openedAt? node = none) {target : ScopeId}
    (htarget : (build source tree).nearestFunction? (node.above.map Prod.fst) = some target) :
    ∃ nearer farther,
      Climbs (build source tree) ((build source tree).scopeOf node) (nearer ++ target :: farther) ∧
      (∀ inner ∈ nearer, (build source tree).kindOf? inner = some .block) ∧
      ((build source tree).kindOf? target = some .function ∨
        (build source tree).kindOf? target = some .program) := by
  have hsound := sound_build source tree
  have hpath := hsound.path_eq hnode (hsound.nearest?_lineage hnode)
  have hfind : ((build source tree).path ((build source tree).scopeOf node)).find?
      (fun candidate => !(build source tree).isBlock candidate) = some target := by
    rw [hpath, ← htarget, ← nearestFunction?, lineage, nearestFunction?_cons,
      show (build source tree).opened.lookup node.id = none from hclosed]
  obtain ⟨hfunction, nearer, farther, hsplit, hblocks⟩ := List.find?_eq_some_iff_append.mp hfind
  refine ⟨nearer, farther, hsplit ▸ (ranked_build source tree).climbs _, ?_, ?_⟩
  · intro inner hinner
    have hblock := hblocks inner hinner
    rw [Bool.not_not, isBlock_eq, Option.any_eq_true] at hblock
    obtain ⟨kind, hkind, hisBlock⟩ := hblock
    rw [hkind, beq_iff_eq.mp hisBlock]
  · obtain ⟨id, _, hopen⟩ := hsound.exists_of_mem_path hnode (hsound.nearest?_lineage hnode)
      (List.mem_of_find?_eq_some hfind)
    obtain ⟨kind, hkind⟩ := hsound.exists_kindOf? hopen
    rw [isBlock_eq, hkind] at hfunction
    cases kind with
    | program => exact .inr hkind
    | function => exact .inl hkind
    | block => simp at hfunction

/-! ## Agreement -/

/-- The finished table agrees with a visit of `node` from `scope`, with `table` as it was then. -/
structure Agrees (source : Source) (tree : Tree) (table : ScopeTable) (node : Node)
    (scope : ScopeId) : Prop where
  /-- The node has a scope of its own just if it is of a form that opens one. -/
  opens : ∀ kind, node.scopeKind? = some kind ↔
    ∃ own, (build source tree).openedAt? node = some own ∧
      (build source tree).kindOf? own = some kind
  /-- Without a scope of its own, the node is in the scope that it was visited from. -/
  closed : (build source tree).openedAt? node = none → (build source tree).scopeOf node = scope
  /-- With one, it is in that; the scope was made by the visit, inside the one it was visited from. -/
  opened : ∀ own, (build source tree).openedAt? node = some own →
    own = table.scopes.size ∧ (build source tree).scopeOf node = own ∧
      (build source tree).parentOf? own = some scope
  lexical : node.kind = .lexicalDeclaration → ∀ name ∈ node.declaratorNames,
    name.text source ≠ "" →
      (build source tree).DeclaredIn source name ((build source tree).scopeOf node)
  /-- Variables are declared in the first scope on the way out that is not a block. -/
  hoisted : node.kind = .variableDeclaration → ∀ name ∈ node.declaratorNames,
    name.text source ≠ "" → ∃ nearer target farther,
      Climbs (build source tree) ((build source tree).scopeOf node) (nearer ++ target :: farther) ∧
      (∀ inner ∈ nearer, (build source tree).kindOf? inner = some .block) ∧
      ((build source tree).kindOf? target = some .function ∨
        (build source tree).kindOf? target = some .program) ∧
      (build source tree).DeclaredIn source name target
  parameters : node.kind.isFunction = true → ∃ own, (build source tree).openedAt? node = some own ∧
    ∀ name ∈ node.parameterNames, name.text source ≠ "" →
      ((build source tree).boundIn? own (name.text source)).isSome

theorem mem_ownNames_of_isFunction (h : node.kind.isFunction = true)
    (hname : name ∈ node.parameterNames) : name ∈ node.ownNames source := by
  unfold ownNames
  split <;> simp_all [Kind.isFunction]

theorem scopeKind?_of_isFunction {parent : Node} (hparent : node.parent? = some parent)
    (h : node.kind.isFunction = true) : node.scopeKind? = some .function := by
  simp only [scopeKind?, hparent, h, if_true]

theorem Calls.complete (h : Calls source tree table node scope) :
    Complete source (build source tree) node := by
  obtain ⟨top, htop, hreached⟩ := h.isEntered
  exact (visited_build source tree).2 top htop node hreached

/-- A table that is complete at a node has a scope for it just if the node opens one. -/
theorem isSome_openedAt? (h : Opens table node) :
    (table.openedAt? node).isSome = node.scopeKind?.isSome := by
  cases hkind : node.scopeKind? with
  | none => rw [h.closed hkind]; rfl
  | some kind =>
      obtain ⟨own, hopen, _⟩ := h.opened kind hkind
      rw [hopen]
      rfl

theorem scopeKind?_eq_some_iff (h : Opens table node) {kind : ScopeKind} :
    node.scopeKind? = some kind ↔
      ∃ own, table.openedAt? node = some own ∧ table.kindOf? own = some kind := by
  refine ⟨h.opened kind, ?_⟩
  rintro ⟨own, hopen, hown⟩
  have hsome : node.scopeKind?.isSome := by rw [← isSome_openedAt? h, hopen]; rfl
  obtain ⟨found, hfound⟩ := Option.isSome_iff_exists.mp hsome
  obtain ⟨own', hopen', hown'⟩ := h.opened found hfound
  rw [hopen] at hopen'
  cases hopen'
  rw [hfound, ← hown', hown]

/-- The scope of a visited node is the next one if the node has one of its own, and otherwise the
one that the node was visited from. -/
theorem Calls.scopeOf_eq (h : Calls source tree table node scope) :
    (build source tree).scopeOf node =
      if ((build source tree).openedAt? node).isSome then table.scopes.size else scope := by
  obtain ⟨parent, hparent⟩ := h.isEntered.exists_parent
  rw [h.called.scopeOf_eq h.isEntered, enter_snd hparent, isSome_openedAt? h.complete.opens]

theorem Calls.openedAt?_eq_none (h : Calls source tree table node scope)
    (hkind : node.kind = .lexicalDeclaration ∨ node.kind = .variableDeclaration) :
    (build source tree).openedAt? node = none := by
  obtain ⟨parent, hparent⟩ := h.isEntered.exists_parent
  apply h.complete.opens.closed
  rcases hkind with hkind | hkind <;> simp [scopeKind?, hparent, hkind, Kind.isFunction]

theorem Calls.agrees (h : Calls source tree table node scope) :
    Agrees source tree table node scope where
  opens := fun _ => scopeKind?_eq_some_iff h.complete.opens
  closed := by
    intro hnone
    rw [h.scopeOf_eq, hnone]
    rfl
  opened := by
    intro own hopen
    have hown := scopeOf_of_openedAt? hopen
    have hnext := h.scopeOf_eq
    rw [hopen] at hnext
    refine ⟨hown.symm.trans hnext, hown, ?_⟩
    exact ((sound_build source tree).parents h.isEntered.within hopen).1.trans
      (h.called.nearest?_above h.isEntered)
  lexical := by
    intro hkind name hname hne
    obtain ⟨found, hdeclared, ⟨_, hnear⟩ | ⟨hother, _⟩⟩ := h.exists_declaredIn (.inl hkind) hname hne
    · rw [h.called.nearest?_above h.isEntered] at hnear
      cases hnear
      rw [h.scopeOf_eq, h.openedAt?_eq_none (.inl hkind)]
      exact hdeclared
    · simp [hkind] at hother
  hoisted := by
    intro hkind name hname hne
    obtain ⟨target, hdeclared, ⟨hother, _⟩ | ⟨_, hnear⟩⟩ := h.exists_declaredIn (.inr hkind) hname hne
    · simp [hkind] at hother
    · obtain ⟨nearer, farther, hclimbs, hblocks, htarget⟩ :=
        exists_climbs_of_nearestFunction? h.isEntered.within (h.openedAt?_eq_none (.inr hkind)) hnear
      exact ⟨nearer, target, farther, hclimbs, hblocks, htarget, hdeclared⟩
  parameters := by
    intro hkind
    obtain ⟨parent, hparent⟩ := h.isEntered.exists_parent
    obtain ⟨own, hopen, _⟩ := h.complete.opens.opened _ (scopeKind?_of_isFunction hparent hkind)
    refine ⟨own, hopen, ?_⟩
    intro name hname hne
    obtain ⟨found, hfound, hbound⟩ :=
      h.complete.own name (mem_ownNames_of_isFunction hkind hname) hne
    rw [hopen] at hfound
    cases hfound
    exact hbound

/-- The visit comes to every node that is not part of an import, and the finished table agrees with
each visit.  What a node declares is bound in its scope or further out. -/
theorem visits_agree (source : Source) (tree : Tree) :
    (∀ node, Within (root tree) node → node ≠ root tree → node.isVisited = true →
      ∃ table scope, Calls source tree table node scope) ∧
    (∀ table node scope, Calls source tree table node scope →
      Agrees source tree table node scope) ∧
    ∀ name binding, Within (root tree) name →
      (build source tree).declaredAt? name = some binding →
      ∃ entry outward, (build source tree).bindings[binding]? = some entry ∧
        Climbs (build source tree) ((build source tree).scopeOf name) outward ∧
        entry.scope ∈ outward := by
  refine ⟨?_, fun _ _ _ h => h.agrees, ?_⟩
  · intro node hnode hroot hvisited
    rcases hnode.head with heq | ⟨child, hmem, hbelow⟩
    · exact absurd heq hroot
    · exact exists_calls ⟨child, hmem, reached_of_isVisited hbelow hvisited⟩
  · intro name binding hname hdeclared
    have hsound := sound_build source tree
    obtain ⟨scope, hentry, _, id, hid, hopen⟩ := hsound.declared hname hdeclared
    refine ⟨_, _, hentry, (ranked_build source tree).climbs _, ?_⟩
    rw [hsound.path_eq hname (hsound.nearest?_lineage hname)]
    exact List.mem_filterMap.mpr ⟨id, hid, hopen⟩

end ScopeTable

namespace Hoisting

/-- A function with a variable and a constant in a block of it. -/
def source : Source where
  text := "function f(x) \x7b\n  if (ok) \x7b\n    var v = 1;\n    let w = 2;\n  \x7d\n\x7d\n"

/-- A declaration of one name of a single letter, which gets a digit. -/
def declaration (kind : Kind) (keyword : String) (start : Nat) : Tree :=
  Sample.node kind start (start + 10) none
    [ Sample.token keyword start (start + 3),
      Sample.node .variableDeclarator (start + 4) (start + 9) none
        [ Sample.name (start + 4) (start + 5) (some .name), Sample.token "=" (start + 6) (start + 7),
          Sample.node (.other "number") (start + 8) (start + 9) (some .value) [] ],
      Sample.token ";" (start + 9) (start + 10) ]

/-- The tree of the function. -/
def tree : Tree :=
  Sample.node .program 0 64 none
    [ Sample.node .functionDeclaration 0 63 none
        [ .node ⟨.function, false, ⟨0, 8⟩, none⟩ [],
          Sample.name 9 10 (some .name),
          Sample.node (.other "formal_parameters") 10 13 (some .parameters)
            [Sample.token "(" 10 11, Sample.name 11 12 none, Sample.token ")" 12 13],
          Sample.node .statementBlock 14 63 (some .body)
            [ Sample.token "\x7b" 14 15,
              Sample.node (.other "if_statement") 18 61 none
                [ Sample.token "if" 18 20,
                  Sample.node (.other "parenthesized_expression") 21 25 none
                    [Sample.token "(" 21 22, Sample.name 22 24 none, Sample.token ")" 24 25],
                  Sample.node .statementBlock 26 61 none
                    [ Sample.token "\x7b" 26 27,
                      declaration .variableDeclaration "var" 32,
                      declaration .lexicalDeclaration "let" 47,
                      Sample.token "\x7d" 60 61 ] ],
              Sample.token "\x7d" 62 63 ] ] ]

example : tree.WellNested source ∧ tree.Trimmed source ∧ tree.Readable source := by
  decide +kernel

end Hoisting

namespace ScopeTable

open Node

/-- A variable in a block of a function is declared in a scope that is no block, further out than
that of its declaration. -/
theorem visits_agree_hoisting :
    ∃ table declaration scope name target,
      Calls Hoisting.source Hoisting.tree table declaration scope ∧
      declaration.kind = .variableDeclaration ∧ name.text Hoisting.source = "v" ∧
      (build Hoisting.source Hoisting.tree).scopeOf declaration = scope ∧
      (build Hoisting.source Hoisting.tree).kindOf? scope = some .block ∧
      (build Hoisting.source Hoisting.tree).DeclaredIn Hoisting.source name target ∧
      (build Hoisting.source Hoisting.tree).kindOf? target ≠ some .block := by
  obtain ⟨declaration, hmem, hkind, hvisited, hopen, hblock, name, hname, hv⟩ :
      ∃ declaration ∈ (root Hoisting.tree).nodes,
        declaration.kind = .variableDeclaration ∧ declaration.isVisited = true ∧
        (build Hoisting.source Hoisting.tree).openedAt? declaration = none ∧
        (build Hoisting.source Hoisting.tree).kindOf?
          ((build Hoisting.source Hoisting.tree).scopeOf declaration) = some .block ∧
        ∃ name ∈ declaration.declaratorNames, name.text Hoisting.source = "v" := by
    decide +kernel
  have hroot : declaration ≠ root Hoisting.tree := by
    rintro rfl
    exact absurd hkind (by decide)
  obtain ⟨hreach, hagree, _⟩ := visits_agree Hoisting.source Hoisting.tree
  obtain ⟨table, scope, hcalls⟩ := hreach declaration (within_of_mem_nodes hmem) hroot hvisited
  have hagrees := hagree table declaration scope hcalls
  obtain ⟨_, target, _, _, _, htarget, hdeclared⟩ :=
    hagrees.hoisted hkind name hname (by rw [hv]; decide)
  rw [hagrees.closed hopen] at hblock
  refine ⟨table, declaration, scope, name, target, hcalls, hkind, hv, hagrees.closed hopen, hblock,
    hdeclared, ?_⟩
  rcases htarget with htarget | htarget <;> rw [htarget] <;> decide

end ScopeTable

end JestMigration
