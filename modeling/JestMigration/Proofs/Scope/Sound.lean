/-
# `Proofs.Scope.Sound` — what a scope table says of the tree

The table is filled from the root down while its number of scopes and bindings
grows; names are looked up from below when it is finished.  `Sound` is what
holds at every moment of the visit, with a bound on the numbers of the nodes
entered so far:

  * a node opens at most one scope, and no two nodes the same;
  * the parent of a scope is the one that the nearest node above has opened;
  * `boundIn?` and the list of bindings say the same;
  * a declaring node stands for a binding of its text, in a scope that is
    opened around it.

`Extends` says that nothing is lost on the way.  Opening a scope and declaring a
name keep both, and `path_eq` reads the scopes around a node off its lineage.
-/
import JestMigration.Proofs.Scope.Declarations
import JestMigration.Scope.Resolve

namespace JestMigration

namespace ScopeTable

open Node

/-- The scope that the nearest of some nodes has opened, the nearest first. -/
def nearest? (table : ScopeTable) (ids : List Nat) : Option ScopeId :=
  ids.findSome? fun id => table.opened.lookup id

/-- The scope that a node has opened has a name in it. -/
def HasName (table : ScopeTable) (node : Node) (name : String) : Prop :=
  ∃ scope, table.openedAt? node = some scope ∧ (table.boundIn? scope name).isSome

/-- The kind of a scope. -/
def kindOf? (table : ScopeTable) (scope : ScopeId) : Option ScopeKind :=
  (table.scopes[scope]?).map Scope.kind

/-- What holds of the table when only nodes with numbers below `bound` have been entered. -/
structure Sound (source : Source) (tree : Tree) (bound : Nat) (table : ScopeTable) : Prop where
  rooted : table.opened.lookup 0 = some programScope
  program : table.kindOf? programScope = some .program
  entered : ∀ {id scope : Nat}, table.opened.lookup id = some scope →
    id < bound ∧ scope < table.scopes.size
  injective : ∀ {a b scope : Nat}, table.opened.lookup a = some scope →
    table.opened.lookup b = some scope → a = b
  parents : ∀ {node : Node} {scope : ScopeId}, Within (root tree) node →
    table.openedAt? node = some scope →
    (table.scopes[scope]?).bind Scope.parent? = table.nearest? (node.above.map Prod.fst) ∧
      ∀ parent, table.nearest? (node.above.map Prod.fst) = some parent → parent < scope
  names : ∀ {scope : ScopeId} {name : String} {binding : BindingId},
    table.boundIn? scope name = some binding ↔ table.bindings[binding]? = some ⟨name, scope⟩
  declared : ∀ {node : Node} {binding : BindingId}, Within (root tree) node →
    table.declaredAt? node = some binding →
    ∃ scope, table.bindings[binding]? = some ⟨node.text source, scope⟩ ∧ node.text source ≠ "" ∧
      ∃ id ∈ node.lineage, table.opened.lookup id = some scope

/-- `after` has all that `before` has: scopes with their kinds, the names bound in them, and what
nodes with numbers below `bound` have opened. -/
structure Extends (bound : Nat) (before after : ScopeTable) : Prop where
  opened : ∀ id < bound, after.opened.lookup id = before.opened.lookup id
  kinds : ∀ {scope : ScopeId} {kind : ScopeKind}, before.kindOf? scope = some kind →
    after.kindOf? scope = some kind
  names : ∀ {scope : ScopeId} {name : String}, (before.boundIn? scope name).isSome →
    (after.boundIn? scope name).isSome

namespace Extends

theorem refl (bound : Nat) (table : ScopeTable) : Extends bound table table :=
  ⟨fun _ _ => rfl, fun h => h, fun h => h⟩

theorem trans {bound : Nat} {first middle last : ScopeTable} (h : Extends bound first middle)
    (h' : Extends bound middle last) : Extends bound first last where
  opened := fun id hid => (h'.opened id hid).trans (h.opened id hid)
  kinds := fun hkind => h'.kinds (h.kinds hkind)
  names := fun hname => h'.names (h.names hname)

theorem mono {bound smaller : Nat} {before after : ScopeTable} (h : Extends bound before after)
    (hle : smaller ≤ bound) : Extends smaller before after where
  opened := fun id hid => h.opened id (Nat.lt_of_lt_of_le hid hle)
  kinds := h.kinds
  names := h.names

end Extends

/-! ## Opening a scope -/

theorem lookup_openScope (table : ScopeTable) (node : Node) (kind : ScopeKind)
    (parent? : Option ScopeId) (id : Nat) :
    (table.openScope node kind parent?).opened.lookup id =
      if id = node.id then some table.scopes.size else table.opened.lookup id := by
  simp only [openScope, List.lookup_cons]
  split <;> simp_all

theorem nearest?_congr {before after : ScopeTable} {ids : List Nat}
    (h : ∀ id ∈ ids, after.opened.lookup id = before.opened.lookup id) :
    after.nearest? ids = before.nearest? ids := by
  induction ids with
  | nil => rfl
  | cons id rest ih =>
      have hrest := ih fun other hother => h other (List.mem_cons_of_mem _ hother)
      simp only [nearest?, List.findSome?_cons, h id List.mem_cons_self] at hrest ⊢
      rw [hrest]

/-- The scope opened by the nearest node is opened by one of them. -/
theorem exists_of_nearest? {table : ScopeTable} {ids : List Nat} {scope : ScopeId}
    (h : table.nearest? ids = some scope) : ∃ id ∈ ids, table.opened.lookup id = some scope :=
  List.exists_of_findSome?_eq_some h

theorem boundIn?_openScope (table : ScopeTable) (node : Node) (kind : ScopeKind)
    (parent? : Option ScopeId) (scope : ScopeId) (name : String) :
    (table.openScope node kind parent?).boundIn? scope name = table.boundIn? scope name := by
  simp only [boundIn?, openScope, Array.getElem?_push]
  split
  · rename_i h
    simp [h]
  · rfl

theorem extends_openScope {bound : Nat} (table : ScopeTable) {node : Node} (kind : ScopeKind)
    (parent? : Option ScopeId) (hbound : bound ≤ node.id) :
    Extends bound table (table.openScope node kind parent?) where
  opened := by
    intro id hid
    rw [lookup_openScope, if_neg (by omega)]
  kinds := by
    intro scope found hkind
    obtain ⟨entry, hentry, rfl⟩ := Option.map_eq_some_iff.mp hkind
    have hlt := (Array.getElem?_eq_some_iff.mp hentry).1
    simp only [kindOf?, openScope, Array.getElem?_push, if_neg (Nat.ne_of_lt hlt), hentry,
      Option.map_some]
  names := by
    intro scope name hname
    rw [boundIn?_openScope]
    exact hname

namespace Sound

variable {source : Source} {tree : Tree} {bound : Nat} {table : ScopeTable}

theorem mono (h : Sound source tree bound table) {larger : Nat} (hle : bound ≤ larger) :
    Sound source tree larger table where
  rooted := h.rooted
  program := h.program
  entered := fun hopen => ⟨Nat.lt_of_lt_of_le (h.entered hopen).1 hle, (h.entered hopen).2⟩
  injective := h.injective
  parents := h.parents
  names := h.names
  declared := h.declared

theorem lookup_of_le (h : Sound source tree bound table) {id : Nat} (hle : bound ≤ id) :
    table.opened.lookup id = none := by
  cases hopen : table.opened.lookup id with
  | none => rfl
  | some scope => exact absurd (h.entered hopen).1 (by omega)

/-- A node that has not been entered opens its scope inside that of the nearest node above. -/
theorem openScope (h : Sound source tree bound table) {node : Node} {kind : ScopeKind}
    {scope : ScopeId} (hnode : Within (root tree) node) (hbound : bound ≤ node.id)
    (hscope : table.nearest? (node.above.map Prod.fst) = some scope) :
    Sound source tree (node.id + 1) (table.openScope node kind (some scope)) := by
  have hlookup := table.lookup_openScope node kind (some scope)
  have hold : ∀ {id found : Nat}, table.opened.lookup id = some found →
      (table.openScope node kind (some scope)).opened.lookup id = some found := by
    intro id found hopen
    have hlt := (h.entered hopen).1
    rw [hlookup, if_neg (by omega), hopen]
  have habove : ∀ {other : Node}, Within (root tree) other → other.id ≤ node.id →
      (table.openScope node kind (some scope)).nearest? (other.above.map Prod.fst) =
        table.nearest? (other.above.map Prod.fst) := by
    intro other hother hle
    apply nearest?_congr
    intro id hid
    have hlt := lt_of_mem_above hother hid
    rw [hlookup, if_neg (by omega)]
  refine {
    rooted := hold h.rooted
    program := (table.extends_openScope kind (some scope) hbound).kinds h.program
    entered := ?entered, injective := ?injective, parents := ?parents
    names := ?names, declared := ?declared }
  case entered =>
    intro id found hopen
    rw [hlookup] at hopen
    have hsize : (table.openScope node kind (some scope)).scopes.size = table.scopes.size + 1 := by
      simp [ScopeTable.openScope]
    split at hopen
    · cases hopen
      omega
    · have hentered := h.entered hopen
      omega
  case injective =>
    intro a b found ha hb
    rw [hlookup] at ha hb
    split at ha <;> split at hb
    · omega
    · cases ha
      exact absurd (h.entered hb).2 (Nat.lt_irrefl _)
    · cases hb
      exact absurd (h.entered ha).2 (Nat.lt_irrefl _)
    · exact h.injective ha hb
  case parents =>
    intro other found hother hopen
    rw [openedAt?, hlookup] at hopen
    split at hopen
    · rename_i hsame
      cases hopen
      rw [hother.eq_of_id hnode hsame, habove hnode (Nat.le_refl _), hscope]
      obtain ⟨id, _, hid⟩ := exists_of_nearest? hscope
      refine ⟨by simp [ScopeTable.openScope], ?_⟩
      rintro parent ⟨rfl⟩
      exact (h.entered hid).2
    · have hentered := h.entered hopen
      have hparents := h.parents hother hopen
      rw [habove hother (by omega)]
      refine ⟨?_, hparents.2⟩
      rw [← hparents.1, ScopeTable.openScope, Array.getElem?_push, if_neg (by omega)]
  case names =>
    intro scope' name binding
    rw [boundIn?_openScope]
    exact h.names
  case declared =>
    intro other binding hother hdeclared
    obtain ⟨found, hentry, hne, id, hid, hopen⟩ := h.declared hother hdeclared
    exact ⟨found, hentry, hne, id, hid, hold hopen⟩

end Sound

/-! ## Declaring a name -/

/-- Declaring finds the binding that is there or makes a new one. -/
theorem declare_cases (table : ScopeTable) (source : Source) (scope : ScopeId) (node : Node) :
    (node.text source = "" ∧ table.declare source scope node = table) ∨
      (node.text source ≠ "" ∧ ∃ binding,
        table.boundIn? scope (node.text source) = some binding ∧
        table.declare source scope node =
          { table with declared := (node.id, binding) :: table.declared }) ∨
      (node.text source ≠ "" ∧ table.boundIn? scope (node.text source) = none ∧
        table.declare source scope node =
          { table with
            scopes := table.scopes.modify scope fun entry =>
              { entry with names := (node.text source, table.bindings.size) :: entry.names }
            bindings := table.bindings.push ⟨node.text source, scope⟩
            declared := (node.id, table.bindings.size) :: table.declared }) := by
  by_cases hname : node.text source = ""
  · exact .inl ⟨hname, by simp [declare, hname]⟩
  · cases hbinding : table.boundIn? scope (node.text source) with
    | some binding => exact .inr (.inl ⟨hname, binding, rfl, by simp [declare, hname, hbinding]⟩)
    | none => exact .inr (.inr ⟨hname, rfl, by simp [declare, hname, hbinding]⟩)

@[simp] theorem opened_declare (table : ScopeTable) (source : Source) (scope : ScopeId)
    (node : Node) : (table.declare source scope node).opened = table.opened := by
  rcases table.declare_cases source scope node with ⟨_, h⟩ | ⟨_, _, _, h⟩ | ⟨_, _, h⟩ <;> rw [h]

@[simp] theorem opened_declareAll (table : ScopeTable) (source : Source) (scope : ScopeId)
    (nodes : List Node) : (table.declareAll source scope nodes).opened = table.opened := by
  induction nodes generalizing table with
  | nil => rfl
  | cons node rest ih =>
      rw [declareAll, List.foldl_cons, ← declareAll, ih, opened_declare]

/-- A new name is bound in its scope and nowhere else. -/
theorem boundIn?_modify {table : ScopeTable} {scope : ScopeId} (hscope : scope < table.scopes.size)
    (name : String) (binding : BindingId) (bindings : Array Binding)
    (declared : List (Nat × BindingId)) (other : ScopeId) (text : String) :
    ScopeTable.boundIn?
        { table with
          scopes := table.scopes.modify scope fun entry =>
            { entry with names := (name, binding) :: entry.names }
          bindings, declared } other text =
      if other = scope ∧ text = name then some binding else table.boundIn? other text := by
  simp only [boundIn?, Array.getElem?_modify]
  by_cases hsame : scope = other
  · subst hsame
    simp only [hscope, Array.getElem?_eq_getElem, if_true, Option.map_some, Option.bind_some,
      List.lookup_cons, true_and]
    split <;> simp_all
  · rw [if_neg hsame, if_neg (fun h => hsame h.1.symm)]

theorem parent?_modify (table : ScopeTable) (scope : ScopeId) (name : String)
    (binding : BindingId) (other : ScopeId) :
    ((table.scopes.modify scope fun entry =>
        { entry with names := (name, binding) :: entry.names })[other]?).bind Scope.parent? =
      (table.scopes[other]?).bind Scope.parent? := by
  rw [Array.getElem?_modify]
  split
  · cases table.scopes[other]? <;> rfl
  · rfl

theorem kindOf?_modify (table : ScopeTable) (scope : ScopeId) (name : String) (binding : BindingId)
    (bindings : Array Binding) (declared : List (Nat × BindingId)) (other : ScopeId) :
    ScopeTable.kindOf?
        { table with
          scopes := table.scopes.modify scope fun entry =>
            { entry with names := (name, binding) :: entry.names }
          bindings, declared } other = table.kindOf? other := by
  simp only [kindOf?, Array.getElem?_modify]
  split
  · cases table.scopes[other]? <;> rfl
  · rfl

/-- Declaring a name in a scope loses nothing. -/
theorem extends_declare {table : ScopeTable} {scope : ScopeId} (source : Source) (node : Node)
    (hscope : scope < table.scopes.size) (bound : Nat) :
    Extends bound table (table.declare source scope node) := by
  rcases table.declare_cases source scope node with ⟨_, heq⟩ | ⟨_, _, _, heq⟩ | ⟨_, _, heq⟩
  · rw [heq]
    exact .refl bound table
  · rw [heq]
    exact ⟨fun _ _ => rfl, fun h => h, fun h => h⟩
  · rw [heq]
    refine ⟨fun _ _ => rfl, fun h => (kindOf?_modify table scope _ _ _ _ _).trans h, ?_⟩
    intro other name hname
    rw [boundIn?_modify hscope]
    split
    · rfl
    · exact hname

theorem size_declare (table : ScopeTable) (source : Source) (scope : ScopeId) (node : Node) :
    (table.declare source scope node).scopes.size = table.scopes.size := by
  rcases table.declare_cases source scope node with ⟨_, h⟩ | ⟨_, _, _, h⟩ | ⟨_, _, h⟩ <;>
    simp [h]

/-- A name that is declared in a scope is bound there. -/
theorem boundIn?_declare {table : ScopeTable} {source : Source} {scope : ScopeId} {node : Node}
    (hscope : scope < table.scopes.size) (hne : node.text source ≠ "") :
    ((table.declare source scope node).boundIn? scope (node.text source)).isSome := by
  rcases table.declare_cases source scope node with
    ⟨hempty, _⟩ | ⟨_, binding, hbinding, heq⟩ | ⟨_, _, heq⟩
  · exact absurd hempty hne
  · rw [heq]
    exact Option.isSome_iff_exists.mpr ⟨binding, hbinding⟩
  · rw [heq, boundIn?_modify hscope, if_pos ⟨rfl, rfl⟩]
    rfl

/-- Declaring names loses nothing, and all of them are bound afterwards. -/
theorem extends_declareAll {source : Source} {scope : ScopeId} (bound : Nat) :
    ∀ {table : ScopeTable} {names : List Node}, scope < table.scopes.size →
      Extends bound table (table.declareAll source scope names) ∧
        ∀ name ∈ names, name.text source ≠ "" →
          ((table.declareAll source scope names).boundIn? scope (name.text source)).isSome
  | table, [], _ => ⟨.refl bound table, fun _ hname => absurd hname List.not_mem_nil⟩
  | table, first :: rest, hscope => by
      have hstep := extends_declare source first hscope bound
      obtain ⟨hrest, hbound⟩ := extends_declareAll bound
        (show scope < (table.declare source scope first).scopes.size by
          rw [size_declare]
          exact hscope)
      rw [declareAll, List.foldl_cons, ← declareAll]
      refine ⟨hstep.trans hrest, ?_⟩
      intro name hname hne
      rcases List.mem_cons.mp hname with rfl | hname
      · exact hrest.names (boundIn?_declare hscope hne)
      · exact hbound name hname hne

namespace Sound

variable {source : Source} {tree : Tree} {bound : Nat} {table : ScopeTable}

/-- The node whose declaration is noted stands for the noted binding, any other for what it stood
for before. -/
theorem declaredAt?_cons {node other : Node} {binding found : BindingId}
    (hnode : Within (root tree) node) (hother : Within (root tree) other)
    (h : List.lookup other.id ((node.id, binding) :: table.declared) = some found) :
    (other = node ∧ found = binding) ∨ table.declaredAt? other = some found := by
  rw [List.lookup_cons] at h
  split at h
  · rename_i hsame
    exact .inl ⟨hother.eq_of_id hnode (by simpa using hsame), (Option.some.inj h).symm⟩
  · exact .inr h

/-- A name that was free in its scope is bound to the last of the bindings, and no other is. -/
theorem names_push (h : Sound source tree bound table) {scope other : ScopeId} {text name : String}
    {found : BindingId} (hfree : table.boundIn? scope text = none) :
    (if other = scope ∧ name = text then some table.bindings.size else table.boundIn? other name) =
        some found ↔
      (table.bindings.push ⟨text, scope⟩)[found]? = some ⟨name, other⟩ := by
  rw [Array.getElem?_push]
  constructor
  · intro hbound
    split at hbound
    · rename_i hsame
      cases hbound
      rw [if_pos rfl, hsame.1, hsame.2]
    · have hentry := h.names.mp hbound
      have hlt := (Array.getElem?_eq_some_iff.mp hentry).1
      rw [if_neg (by omega), hentry]
  · intro hentry
    split at hentry
    · rename_i hlast
      cases hentry
      rw [if_pos ⟨rfl, rfl⟩, hlast]
    · have hbound := h.names.mpr hentry
      rw [if_neg, hbound]
      rintro ⟨rfl, rfl⟩
      rw [hfree] at hbound
      exact absurd hbound (by simp)

/-- A name can be declared in any scope that is opened around it. -/
theorem declare (h : Sound source tree bound table) {node : Node} {scope : ScopeId}
    (hnode : Within (root tree) node)
    (hscope : ∃ id ∈ node.lineage, table.opened.lookup id = some scope) :
    Sound source tree bound (table.declare source scope node) := by
  rcases table.declare_cases source scope node with
    ⟨_, heq⟩ | ⟨hne, binding, hbinding, heq⟩ | ⟨hne, hnone, heq⟩
  · rw [heq]
    exact h
  · rw [heq]
    refine ⟨h.rooted, h.program, h.entered, h.injective, h.parents, h.names, ?_⟩
    intro other found hother hdeclared
    rcases declaredAt?_cons hnode hother hdeclared with ⟨rfl, rfl⟩ | hold
    · exact ⟨scope, h.names.mp hbinding, hne, hscope⟩
    · exact h.declared hother hold
  · rw [heq]
    obtain ⟨id, hid, hopen⟩ := hscope
    have hsize := (h.entered hopen).2
    refine {
      rooted := h.rooted
      program := (kindOf?_modify table scope _ _ _ _ _).trans h.program
      injective := h.injective
      entered := ?entered, parents := ?parents, names := ?names, declared := ?declared }
    case entered =>
      intro id' found hopen'
      have hentered := h.entered hopen'
      simpa using hentered
    case parents =>
      intro other found hother hopen'
      have hparents := h.parents hother hopen'
      exact ⟨(parent?_modify table scope _ _ found).trans hparents.1, hparents.2⟩
    case names =>
      intro other text found
      rw [boundIn?_modify hsize]
      exact h.names_push hnone
    case declared =>
      intro other found hother hdeclared
      rcases declaredAt?_cons hnode hother hdeclared with ⟨rfl, rfl⟩ | hold
      · exact ⟨scope, by simp, hne, id, hid, hopen⟩
      · obtain ⟨inner, hentry, hne', hopened⟩ := h.declared hother hold
        have hlt := (Array.getElem?_eq_some_iff.mp hentry).1
        exact ⟨inner, by rw [Array.getElem?_push, if_neg (by omega), hentry], hne', hopened⟩

/-- Names within a node can be declared in any scope that is opened around the node. -/
theorem declareAll (h : Sound source tree bound table) {node : Node} {scope : ScopeId}
    (hnode : Within (root tree) node) {names : List Node}
    (hscope : ∃ id ∈ node.lineage, table.opened.lookup id = some scope)
    (hnames : ∀ name ∈ names, Within node name) :
    Sound source tree bound (table.declareAll source scope names) := by
  induction names generalizing table with
  | nil => exact h
  | cons name rest ih =>
      have hname := hnames name List.mem_cons_self
      obtain ⟨inner, hlineage, _⟩ := exists_lineage_append hname
      obtain ⟨id, hid, hopen⟩ := hscope
      have hstep : Sound source tree bound (table.declare source scope name) :=
        h.declare (hnode.trans hname) ⟨id, by rw [hlineage]; exact List.mem_append_right _ hid, hopen⟩
      rw [ScopeTable.declareAll, List.foldl_cons, ← ScopeTable.declareAll]
      exact ih hstep ⟨id, hid, by rw [opened_declare, hopen]⟩
        fun other hother => hnames other (List.mem_cons_of_mem _ hother)

/-! ## The scopes around a node -/

/-- Climbing from the scope of a node meets the scopes opened around it, and no others. -/
theorem path_eq (h : Sound source tree bound table) {node : Node} {scope : ScopeId}
    (hnode : Within (root tree) node) (hscope : table.nearest? node.lineage = some scope) :
    table.path scope = node.lineage.filterMap fun id => table.opened.lookup id := by
  induction hnode generalizing scope with
  | self =>
      have hparents := h.parents .self h.rooted
      have hzero : scope = programScope := by
        simpa [nearest?, lineage, root, h.rooted] using hscope.symm
      rw [hzero, path]
      simp [hparents.1, nearest?, lineage, root, h.rooted]
  | @child parent child hparent hmem ih =>
      rw [lineage_of_mem_children hmem] at hscope ⊢
      rw [nearest?, List.findSome?_cons] at hscope
      cases hopen : table.opened.lookup child.id with
      | none =>
          rw [hopen] at hscope
          rw [List.filterMap_cons, hopen]
          exact ih hscope
      | some own =>
          rw [hopen] at hscope
          cases hscope
          obtain ⟨hup, hlt⟩ := h.parents (hparent.child hmem) hopen
          rw [above_eq_lineage hmem] at hup hlt
          rw [List.filterMap_cons, hopen, path, hup]
          cases hnear : table.nearest? parent.lineage with
          | none =>
              have hnil : parent.lineage.filterMap (fun id => table.opened.lookup id) = [] :=
                List.filterMap_eq_nil_iff.mpr (List.findSome?_eq_none_iff.mp hnear)
              rw [hnil]
          | some outer => simp only [hlt outer hnear, if_true, ih hnear]

/-- Every scope on the way out of a node's scope is opened around the node. -/
theorem exists_of_mem_path (h : Sound source tree bound table) {node : Node}
    {scope outer : ScopeId} (hnode : Within (root tree) node)
    (hscope : table.nearest? node.lineage = some scope) (houter : outer ∈ table.path scope) :
    ∃ id ∈ node.lineage, table.opened.lookup id = some outer := by
  rw [h.path_eq hnode hscope] at houter
  exact List.mem_filterMap.mp houter

end Sound

theorem self_mem_path (table : ScopeTable) (scope : ScopeId) : scope ∈ table.path scope := by
  rw [path]
  split
  · split <;> simp
  · simp

theorem functionScope_mem_path (table : ScopeTable) (scope : ScopeId) :
    table.functionScope scope ∈ table.path scope := by
  unfold functionScope
  cases hfind : (table.path scope).find? fun candidate => !table.isBlock candidate with
  | none => exact self_mem_path table scope
  | some found => exact List.mem_of_find?_eq_some hfind

end ScopeTable

end JestMigration
