/-
# `Proofs.Scope.Exact` — nothing is bound that is not declared

`Proofs.Scope.Build` says that what is declared is bound.  Here is the converse:
every binding of the finished table, and every node that stands for one, goes
back to a node that was entered and has the name among its own names, among the
names for the scope around it, or among those for the function around it
(`Traced`).  With both, the names in the scope of a node are exactly those that
the syntax binds there (`hasName_iff_binds`).

`visit_rule` is the induction behind it: what entering a node preserves holds of
the finished table.
-/
import JestMigration.Proofs.Scope.Build

namespace JestMigration

namespace ScopeTable

open Node

variable {source : Source} {tree : Tree} {table before after : ScopeTable} {node name : Node}
  {scope : ScopeId} {bound : Nat}

/-! ## Induction over a visit -/

/-- The visit comes to the node, which is below the root. -/
def IsEntered (tree : Tree) (node : Node) : Prop :=
  ∃ child ∈ (root tree).children, Reached child node

theorem IsEntered.within (h : IsEntered tree node) : Within (root tree) node := by
  obtain ⟨child, hmem, hreached⟩ := h
  exact (Within.of_mem_children hmem).trans hreached.within

theorem IsEntered.exists_parent (h : IsEntered tree node) : ∃ parent, node.parent? = some parent := by
  obtain ⟨child, hmem, hreached⟩ := h
  rcases hreached.within.last with rfl | ⟨parent, hparent, _⟩
  · exact ⟨_, parent?_of_mem_children hmem⟩
  · exact ⟨parent, parent?_of_mem_children hparent⟩

theorem IsEntered.child {child : Node} (h : IsEntered tree node)
    (hmem : child ∈ visitedChildren node) : IsEntered tree child := by
  obtain ⟨top, htop, hreached⟩ := h
  exact ⟨top, htop, hreached.child hmem⟩

section Rule

variable {P : Nat → ScopeTable → Prop}

/-- Visiting the children of a node one after the other keeps what each visit keeps. -/
theorem rule_foldl (hmono : ∀ {a b : Nat} {table : ScopeTable}, a ≤ b → P a table → P b table)
    (hnode : Within (root tree) node) {inner : ScopeId} {limit : Nat} :
    ∀ {children : List Node} {bound : Nat} {table : ScopeTable},
      (∀ child ∈ children, ∀ current : ScopeTable, Sound source tree child.id current →
        current.nearest? node.lineage = some inner → P child.id current →
        P (child.id + child.tree.size) (visit source current child inner)) →
      (∀ child ∈ children, child ∈ node.children) →
      children.Pairwise (fun a b => a.id + a.tree.size ≤ b.id) →
      (∀ child ∈ children, bound ≤ child.id ∧ child.id + child.tree.size ≤ limit) →
      bound ≤ limit → node.id < bound → Sound source tree bound table →
      table.nearest? node.lineage = some inner → P bound table →
      P limit (children.foldl (fun current child => visit source current child inner) table)
  | [], _, _, _, _, _, _, hle, _, _, _, hP => hmono hle hP
  | child :: rest, bound, table, hstep, hmem, hordered, hlimit, _, hlt, h, hinner, hP => by
      obtain ⟨hfirst, hordered⟩ := List.pairwise_cons.mp hordered
      obtain ⟨hle, hsize⟩ := hlimit child List.mem_cons_self
      have hchild := hmem child List.mem_cons_self
      have hvisit := visited_child hnode hchild (h.mono hle) hinner
      have hpos := child.tree.size_pos
      rw [List.foldl_cons]
      refine rule_foldl hmono hnode (fun other hother => hstep other (List.mem_cons_of_mem _ hother))
        (fun other hother => hmem other (List.mem_cons_of_mem _ hother)) hordered ?_ hsize (by omega)
        hvisit.sound ?_ (hstep child List.mem_cons_self table (h.mono hle) hinner (hmono hle hP))
      · intro other hother
        exact ⟨hfirst other hother, (hlimit other (List.mem_cons_of_mem _ hother)).2⟩
      · refine (nearest?_congr ?_).trans hinner
        intro id hid
        have hid := le_of_mem_lineage hnode hid
        exact hvisit.grows.opened id (by omega)

/-- What entering a node keeps, a whole visit keeps. -/
theorem visit_rule (hmono : ∀ {a b : Nat} {table : ScopeTable}, a ≤ b → P a table → P b table)
    (henter : ∀ {node parent : Node} {table : ScopeTable} {scope : ScopeId}, IsEntered tree node →
      node.parent? = some parent → Sound source tree node.id table →
      table.nearest? (node.above.map Prod.fst) = some scope → P node.id table →
      P (node.id + 1) (table.contribute source node scope).1)
    (node : Node) (hreached : IsEntered tree node) {parent : Node}
    (hparent : node.parent? = some parent) (table : ScopeTable) (scope : ScopeId)
    (h : Sound source tree node.id table)
    (hscope : table.nearest? (node.above.map Prod.fst) = some scope) (hP : P node.id table) :
    P (node.id + node.tree.size) (visit source table node scope) := by
  obtain ⟨hentered, _⟩ := entered_contribute h hreached.within hparent hscope
  have hfirst := henter hreached hparent h hscope hP
  rw [← enter_eq hparent] at hentered hfirst
  have hchildren : ∀ child ∈ visitedChildren node, child ∈ node.children :=
    fun _ hmem => mem_children_of_mem_visitedChildren hmem
  have hpos := node.tree.size_pos
  rw [visit_eq]
  refine rule_foldl (P := P) hmono hreached.within ?_ hchildren (visitedChildren_pairwise node) ?_
    (by omega)
    (Nat.lt_succ_self _) hentered.sound hentered.inner hfirst
  · intro child hmem current hsound hinner hP
    have hlt := size_lt_of_mem_children (hchildren child hmem)
    exact visit_rule hmono henter child (hreached.child hmem)
      (parent?_of_mem_children (hchildren child hmem)) current _ hsound
      (by rw [above_eq_lineage (hchildren child hmem), hinner]) hP
  · intro child hmem
    have hbounds := id_bounds_of_mem_children (hchildren child hmem)
    exact ⟨hbounds.1, hbounds.2⟩
termination_by node.tree.size

/-- What entering a node keeps holds of the finished table. -/
theorem build_rule (hmono : ∀ {a b : Nat} {table : ScopeTable}, a ≤ b → P a table → P b table)
    (henter : ∀ {node parent : Node} {table : ScopeTable} {scope : ScopeId}, IsEntered tree node →
      node.parent? = some parent → Sound source tree node.id table →
      table.nearest? (node.above.map Prod.fst) = some scope → P node.id table →
      P (node.id + 1) (table.contribute source node scope).1)
    (hstart : P 1 (ScopeTable.openScope {} (root tree) .program none)) :
    P tree.size (build source tree) := by
  refine rule_foldl (P := P) hmono .self ?_ (fun _ hmem => hmem)
    (root tree).children_pairwise ?_ tree.size_pos Nat.zero_lt_one (sound_empty source tree) rfl
    hstart
  · intro child hmem current hsound hinner hP
    exact visit_rule (P := P) hmono henter child ⟨child, hmem, .self⟩ (parent?_of_mem_children hmem)
      current _ hsound (by rw [above_eq_lineage hmem, hinner]) hP
  · intro child hmem
    have hbounds := id_bounds_of_mem_children hmem
    exact ⟨hbounds.1, by simpa [root] using hbounds.2⟩

end Rule

/-! ## Where a name comes from -/

/-- `Traced source tree bound table name scope`: a node that has been entered binds `name` in
`scope`, which is its own scope, the one around it, or that of the function around it. -/
inductive Traced (source : Source) (tree : Tree) (bound : Nat) (table : ScopeTable) :
    Node → ScopeId → Prop
  | own {node name : Node} {scope : ScopeId} : IsEntered tree node → node.id < bound →
      name ∈ node.ownNames source → table.openedAt? node = some scope →
      Traced source tree bound table name scope
  | block {node name : Node} {scope : ScopeId} : IsEntered tree node → node.id ≤ bound →
      name ∈ node.blockNames → table.nearest? (node.above.map Prod.fst) = some scope →
      Traced source tree bound table name scope
  | hoisted {node name : Node} {scope : ScopeId} : IsEntered tree node → node.id ≤ bound →
      name ∈ node.hoistedNames source →
      table.nearestFunction? (node.above.map Prod.fst) = some scope →
      Traced source tree bound table name scope

namespace Traced

theorem mono {larger : Nat} (h : Traced source tree bound table name scope)
    (hle : bound ≤ larger) : Traced source tree larger table name scope := by
  cases h with
  | own hentered hlt hname hopen => exact .own hentered (Nat.lt_of_lt_of_le hlt hle) hname hopen
  | block hentered hid hname hnear => exact .block hentered (Nat.le_trans hid hle) hname hnear
  | hoisted hentered hid hname hnear => exact .hoisted hentered (Nat.le_trans hid hle) hname hnear

/-- What has been traced stays traced. -/
theorem extend {limit : Nat} (h : Traced source tree bound before name scope)
    (hsound : Sound source tree limit before) (hext : Extends bound before after) :
    Traced source tree bound after name scope := by
  have habove : ∀ {node : Node}, IsEntered tree node → node.id ≤ bound →
      ∀ id ∈ node.above.map Prod.fst, id < bound := by
    intro node hentered hle id hid
    exact Nat.lt_of_lt_of_le (lt_of_mem_above hentered.within hid) hle
  cases h with
  | own hentered hlt hname hopen =>
      exact .own hentered hlt hname ((hext.opened _ hlt).trans hopen)
  | block hentered hle hname hnear =>
      refine .block hentered hle hname ((nearest?_congr ?_).trans hnear)
      exact fun id hid => hext.opened id (habove hentered hle id hid)
  | hoisted hentered hle hname hnear =>
      exact .hoisted hentered hle hname
        ((nearestFunction?_congr hsound hext (habove hentered hle)).trans hnear)

end Traced

/-- All that is bound has been declared. -/
structure Exact (source : Source) (tree : Tree) (bound : Nat) (table : ScopeTable) : Prop where
  bindings : ∀ {binding : BindingId} {text : String} {scope : ScopeId},
    table.bindings[binding]? = some ⟨text, scope⟩ → text ≠ "" ∧
      ∃ name, name.text source = text ∧ Traced source tree bound table name scope
  declared : ∀ {node : Node} {binding : BindingId}, Within (root tree) node →
    table.declaredAt? node = some binding →
    ∃ scope, table.bindings[binding]? = some ⟨node.text source, scope⟩ ∧
      Traced source tree bound table node scope

namespace Exact

theorem mono {larger : Nat} (h : Exact source tree bound table) (hle : bound ≤ larger) :
    Exact source tree larger table where
  bindings := by
    intro binding text scope hentry
    obtain ⟨hne, name, htext, htraced⟩ := h.bindings hentry
    exact ⟨hne, name, htext, htraced.mono hle⟩
  declared := by
    intro node binding hnode hdeclared
    obtain ⟨scope, hentry, htraced⟩ := h.declared hnode hdeclared
    exact ⟨scope, hentry, htraced.mono hle⟩

/-- A table that says the same of bindings and extends an exact one is exact. -/
theorem extend {limit : Nat} (h : Exact source tree bound before)
    (hsound : Sound source tree limit before) (hext : Extends bound before after)
    (hbindings : after.bindings = before.bindings) (hdeclared : after.declared = before.declared) :
    Exact source tree bound after where
  bindings := by
    intro binding text scope hentry
    obtain ⟨hne, name, htext, htraced⟩ := h.bindings (hbindings ▸ hentry)
    exact ⟨hne, name, htext, htraced.extend hsound hext⟩
  declared := by
    intro node binding hnode hdeclared'
    rw [declaredAt?, hdeclared] at hdeclared'
    obtain ⟨scope, hentry, htraced⟩ := h.declared hnode hdeclared'
    exact ⟨scope, by rw [hbindings, hentry], htraced.extend hsound hext⟩

/-- Declaring a name where it belongs. -/
theorem declare {limit : Nat} (h : Exact source tree bound table)
    (hsound : Sound source tree limit table) (hname : Within (root tree) name)
    (hscope : scope < table.scopes.size) (htraced : Traced source tree bound table name scope) :
    Exact source tree bound (table.declare source scope name) := by
  have hext := extends_declare source name hscope bound
  have hnew := htraced.extend hsound hext
  rcases table.declare_cases source scope name with
    ⟨_, heq⟩ | ⟨_, binding, hbinding, heq⟩ | ⟨hne, _, heq⟩
  · rw [heq]
    exact h
  · rw [heq] at hext hnew ⊢
    refine ⟨?_, ?_⟩
    · intro binding text scope hentry
      obtain ⟨hne, found, htext, hfound⟩ := h.bindings hentry
      exact ⟨hne, found, htext, hfound.extend hsound hext⟩
    · intro node found hnode hdeclared
      rcases Sound.declaredAt?_cons hname hnode hdeclared with ⟨rfl, rfl⟩ | hold
      · exact ⟨scope, hsound.names.mp hbinding, hnew⟩
      · obtain ⟨other, hentry, hfound⟩ := h.declared hnode hold
        exact ⟨other, hentry, hfound.extend hsound hext⟩
  · rw [heq] at hext hnew ⊢
    refine ⟨?_, ?_⟩
    · intro binding text other hentry
      simp only [Array.getElem?_push] at hentry
      split at hentry
      · cases hentry
        exact ⟨hne, name, rfl, hnew⟩
      · obtain ⟨hne, found, htext, hfound⟩ := h.bindings hentry
        exact ⟨hne, found, htext, hfound.extend hsound hext⟩
    · intro node found hnode hdeclared
      rcases Sound.declaredAt?_cons hname hnode hdeclared with ⟨rfl, rfl⟩ | hold
      · exact ⟨scope, by simp, hnew⟩
      · obtain ⟨other, hentry, hfound⟩ := h.declared hnode hold
        have hlt := (Array.getElem?_eq_some_iff.mp hentry).1
        exact ⟨other, by simp only [Array.getElem?_push, if_neg (Nat.ne_of_lt hlt), hentry],
          hfound.extend hsound hext⟩

/-- Declaring the names of a node in a scope around it. -/
theorem declareAll {limit : Nat} (hnode : Within (root tree) node) :
    ∀ {names : List Node} {table : ScopeTable}, Exact source tree bound table →
      Sound source tree limit table →
      (∃ id ∈ node.lineage, table.opened.lookup id = some scope) →
      (∀ name ∈ names, Within node name ∧ Traced source tree bound table name scope) →
      Exact source tree bound (table.declareAll source scope names)
  | [], _, h, _, _, _ => h
  | name :: rest, table, h, hsound, hopened, hnames => by
      obtain ⟨id, hid, hopen⟩ := hopened
      obtain ⟨hname, htraced⟩ := hnames name List.mem_cons_self
      have hsize := (hsound.entered hopen).2
      obtain ⟨inner, hlineage, _⟩ := exists_lineage_append hname
      have hstep := hsound.declare (hnode.trans hname)
        ⟨id, by rw [hlineage]; exact List.mem_append_right _ hid, hopen⟩
      rw [ScopeTable.declareAll, List.foldl_cons, ← ScopeTable.declareAll]
      refine declareAll hnode (h.declare hsound (hnode.trans hname) hsize htraced) hstep
        ⟨id, hid, by rw [opened_declare, hopen]⟩ ?_
      intro other hother
      obtain ⟨hin, htraced⟩ := hnames other (List.mem_cons_of_mem _ hother)
      exact ⟨hin, htraced.extend hsound (extends_declare source name hsize bound)⟩

end Exact

/-- Entering a node binds what it declares, where it declares it. -/
theorem exact_contribute {parent : Node} (hentered : IsEntered tree node)
    (hparent : node.parent? = some parent) (h : Sound source tree node.id table)
    (hscope : table.nearest? (node.above.map Prod.fst) = some scope)
    (hexact : Exact source tree node.id table) :
    Exact source tree (node.id + 1) (table.contribute source node scope).1 := by
  have hnode := hentered.within
  obtain ⟨id, hid, hopen⟩ := exists_of_nearest? hscope
  have hsound := h.declareAll hnode ⟨id, List.mem_cons_of_mem _ hid, hopen⟩
    fun _ hname => within_of_mem_blockNames hname
  have hblock := hexact.declareAll hnode h ⟨id, List.mem_cons_of_mem _ hid, hopen⟩
    fun _ hname => ⟨within_of_mem_blockNames hname,
      .block hentered (Nat.le_refl _) hname hscope⟩
  obtain ⟨hopened, hopens⟩ := entered_opening hsound hnode
    ((nearest?_congr fun _ _ => by rw [opened_declareAll]).trans hscope)
  have hbetween : Exact source tree (node.id + 1)
      ((table.declareAll source scope node.blockNames).opening node scope).1 := by
    refine (hblock.extend hsound hopened.grows ?_ ?_).mono (Nat.le_succ _)
    · unfold opening
      split <;> rfl
    · unfold opening
      split <;> rfl
  obtain ⟨hown, hownGrows, _⟩ := hopened.declareAll hnode (self_mem_path _ _)
    fun _ hname => within_of_mem_ownNames hname
  have hownExact := hbetween.declareAll hnode hopened.sound
    (hopened.sound.exists_of_mem_path hnode hopened.inner (self_mem_path _ _))
    fun name hname => by
      refine ⟨within_of_mem_ownNames hname, .own hentered (Nat.lt_succ_self _) hname ?_⟩
      obtain ⟨kind, hkind⟩ := scopeKind?_of_mem_ownNames hname
      obtain ⟨own, hown, _⟩ := hopens.opened kind hkind
      have hinner := hopened.inner
      rw [nearest?, lineage, List.findSome?_cons,
        show List.lookup node.id _ = some own from hown] at hinner
      rw [hown]
      exact hinner
  refine hownExact.declareAll hnode hown.sound
    (hown.sound.exists_of_mem_path hnode hown.inner (functionScope_mem_path _ _))
    fun name hname => ⟨within_of_mem_hoistedNames hname,
      .hoisted hentered (Nat.le_succ _) hname ?_⟩
  exact nearestFunction?_above hown.sound hnode hown.inner
    (hopens.extend hownGrows (Nat.lt_succ_self _)) (scopeKind?_of_mem_hoistedNames hname hparent)

/-- All that is bound in the finished table has been declared. -/
theorem exact_build (source : Source) (tree : Tree) :
    Exact source tree tree.size (build source tree) := by
  refine build_rule (P := Exact source tree) (fun hle h => h.mono hle) exact_contribute ⟨?_, ?_⟩
  · intro binding text scope hentry
    exact absurd hentry (by simp [ScopeTable.openScope])
  · intro node binding _ hdeclared
    exact absurd hdeclared (by simp [declaredAt?, ScopeTable.openScope])

/-! ## The scope of a node, from the table and from the syntax -/

/-- Above a node that the visit comes to, apart from the root, it has come to all of them. -/
theorem IsEntered.isVisited (h : IsEntered tree node) (hroot : (root tree).kind ≠ .importStatement) :
    node.isVisited = true := by
  obtain ⟨child, hmem, hreached⟩ := h
  have hstart : child.isVisited = true := by
    rw [isVisited_of_mem_children hmem, Bool.and_eq_true]
    exact ⟨by simpa using hroot, rfl⟩
  clear hmem
  induction hreached with
  | self => exact hstart
  | @step top child node hmem _ ih =>
      have hkind : top.kind ≠ .importStatement := by
        intro hkind
        rw [visitedChildren, if_pos hkind] at hmem
        exact absurd hmem List.not_mem_nil
      apply ih
      rw [isVisited_of_mem_children (mem_children_of_mem_visitedChildren hmem), hstart,
        Bool.and_true]
      simpa using hkind

theorem within_of_mem_ancestors {above : Node} (h : Within (root tree) node)
    (habove : above ∈ node.ancestors) : Within (root tree) above ∧ Within above node := by
  induction h with
  | self => exact absurd habove List.not_mem_nil
  | @child parent child hparent hmem ih =>
      rw [ancestors_of_mem_children hmem] at habove
      rcases List.mem_cons.mp habove with rfl | habove
      · exact ⟨hparent, .of_mem_children hmem⟩
      · obtain ⟨htop, hin⟩ := ih habove
        exact ⟨htop, hin.child hmem⟩

/-- The names in the scope of a node are those that the syntax binds there. -/
theorem hasName_iff_binds {holder : Node} {text : String} (hholder : Within (root tree) holder)
    (hne : holder ≠ root tree) (hroot : (root tree).kind ≠ .importStatement) :
    (build source tree).HasName holder text ↔
      text ≠ "" ∧ ∃ name, Binds source tree holder name ∧ name.text source = text := by
  have hsound := sound_build source tree
  constructor
  · rintro ⟨scope, hopen, hbound⟩
    obtain ⟨binding, hbinding⟩ := Option.isSome_iff_exists.mp hbound
    obtain ⟨hempty, name, htext, htraced⟩ :=
      (exact_build source tree).bindings (hsound.names.mp hbinding)
    refine ⟨hempty, name, ?_, htext⟩
    -- Only one node has opened the scope.
    have hsame : ∀ {other : Node}, Within (root tree) other →
        (build source tree).openedAt? other = some scope → other = holder :=
      fun hother hopen' => hother.eq_of_id hholder (hsound.injective hopen' hopen)
    cases htraced with
    | own hentered _ hname hopen' =>
        have hvisited := hentered.isVisited hroot
        rw [hsame hentered.within hopen'] at hvisited hname
        exact .own hvisited hname
    | @block node _ _ hentered _ hname hnear =>
        have hvisited := hentered.isVisited hroot
        rw [← map_id_enclosing, ← ancestors,
          nearest?_eq (opens_ancestors source hentered.within hvisited)] at hnear
        obtain ⟨above, habove, hopen'⟩ := Option.bind_eq_some_iff.mp hnear
        obtain ⟨htop, _⟩ :=
          within_of_mem_ancestors hentered.within (List.mem_of_find?_eq_some habove)
        exact .block hentered.within hvisited hname (hsame htop hopen' ▸ habove)
    | @hoisted node _ _ hentered _ hname hnear =>
        have hvisited := hentered.isVisited hroot
        rw [← map_id_enclosing, ← ancestors,
          nearestFunction?_eq (opens_ancestors source hentered.within hvisited)] at hnear
        obtain ⟨above, habove, hopen'⟩ := Option.bind_eq_some_iff.mp hnear
        obtain ⟨htop, _⟩ :=
          within_of_mem_ancestors hentered.within (List.mem_of_find?_eq_some habove)
        exact .hoisted hentered.within hvisited hname (hsame htop hopen' ▸ habove)
  · rintro ⟨hempty, name, hbinds, rfl⟩
    exact hasName_of_binds hholder hne hbinds hempty

end ScopeTable

end JestMigration
