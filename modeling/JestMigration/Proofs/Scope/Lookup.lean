/-
# `Proofs.Scope.Lookup` — the scope table as a data structure

The table is an array of scopes with parents, a list of bindings, and names in
each scope that point into that list.  All of them are filled during one visit.
`Represented` says what holds of them together when it is over:

  * the scopes are a tree: the first is the program, the others have older
    parents;
  * the names in the scopes and the list of bindings are inverse to each other;
  * a node that declares something stands for a binding of its text.

`Climbs` goes from parent to parent as long as there is one, with nothing to
make it stop.  In the finished table it ends, whatever scope it starts from, so
that `lookup?` finds the nearest binding on the way if there is one
(`represented_lookup`).
-/
import JestMigration.Proofs.Scope.Exact
import JestMigration.Proofs.Syntax.Nesting

namespace JestMigration

namespace ScopeTable

open Node

variable {source : Source} {tree : Tree} {table : ScopeTable} {node : Node} {scope : ScopeId}

/-! ## Parents are older -/

/-- The scope right around a scope. -/
def parentOf? (table : ScopeTable) (scope : ScopeId) : Option ScopeId :=
  (table.scopes[scope]?).bind Scope.parent?

/-- The first scope is the program and has no parent; the others have older parents. -/
structure Ranked (table : ScopeTable) : Prop where
  rooted : ∀ {scope : ScopeId}, scope < table.scopes.size →
    (table.parentOf? scope = none ↔ scope = programScope)
  program : ∀ {scope : ScopeId}, table.kindOf? scope = some .program ↔ scope = programScope
  older : ∀ {scope parent : ScopeId}, table.parentOf? scope = some parent → parent < scope

theorem parentOf?_openScope (table : ScopeTable) (node : Node) (kind : ScopeKind)
    (parent? : Option ScopeId) (scope : ScopeId) :
    (table.openScope node kind parent?).parentOf? scope =
      if scope = table.scopes.size then parent? else table.parentOf? scope := by
  simp only [parentOf?, openScope, Array.getElem?_push]
  split <;> rfl

theorem kindOf?_openScope (table : ScopeTable) (node : Node) (kind : ScopeKind)
    (parent? : Option ScopeId) (scope : ScopeId) :
    (table.openScope node kind parent?).kindOf? scope =
      if scope = table.scopes.size then some kind else table.kindOf? scope := by
  simp only [kindOf?, openScope, Array.getElem?_push]
  split <;> rfl

theorem parentOf?_declare (table : ScopeTable) (source : Source) (scope : ScopeId) (name : Node)
    (other : ScopeId) : (table.declare source scope name).parentOf? other = table.parentOf? other := by
  rcases table.declare_cases source scope name with ⟨_, heq⟩ | ⟨_, _, _, heq⟩ | ⟨_, _, heq⟩
  · rw [heq]
  · rw [heq]
    rfl
  · rw [heq]
    exact parent?_modify table scope _ _ other

theorem kindOf?_declare (table : ScopeTable) (source : Source) (scope : ScopeId) (name : Node)
    (other : ScopeId) : (table.declare source scope name).kindOf? other = table.kindOf? other := by
  rcases table.declare_cases source scope name with ⟨_, heq⟩ | ⟨_, _, _, heq⟩ | ⟨_, _, heq⟩
  · rw [heq]
  · rw [heq]
    rfl
  · rw [heq]
    exact kindOf?_modify table scope _ _ _ _ other

namespace Ranked

theorem size_pos (h : Ranked table) : 0 < table.scopes.size := by
  obtain ⟨entry, hentry, _⟩ := Option.map_eq_some_iff.mp (h.program.mpr rfl)
  exact (Array.getElem?_eq_some_iff.mp hentry).1

/-- A new scope inside one that is there. -/
theorem openScope (h : Ranked table) (node : Node) {kind : ScopeKind} {parent : ScopeId}
    (hkind : kind ≠ .program) (hparent : parent < table.scopes.size) :
    Ranked (table.openScope node kind (some parent)) where
  rooted := by
    intro scope hlt
    have hpos := h.size_pos
    simp only [ScopeTable.openScope, Array.size_push] at hlt
    rw [parentOf?_openScope]
    split
    · rename_i hnew
      simp only [reduceCtorEq, programScope, false_iff]
      exact Nat.ne_of_gt (hnew ▸ hpos)
    · rename_i hold
      exact h.rooted (Nat.lt_of_le_of_ne (Nat.le_of_lt_succ hlt) hold)
  program := by
    intro scope
    have hpos := h.size_pos
    rw [kindOf?_openScope]
    split
    · rename_i hnew
      simp only [Option.some.injEq, hkind, programScope, false_iff]
      exact Nat.ne_of_gt (hnew ▸ hpos)
    · exact h.program
  older := by
    intro scope found hfound
    rw [parentOf?_openScope] at hfound
    split at hfound
    · rename_i hnew
      cases hfound
      exact hnew ▸ hparent
    · exact h.older hfound

/-- Names do not matter to the tree of scopes. -/
theorem declare (h : Ranked table) (source : Source) (scope : ScopeId) (name : Node) :
    Ranked (table.declare source scope name) where
  rooted := by
    intro other hlt
    rw [size_declare] at hlt
    rw [parentOf?_declare]
    exact h.rooted hlt
  program := by
    intro other
    rw [kindOf?_declare]
    exact h.program
  older := by
    intro other parent hparent
    rw [parentOf?_declare] at hparent
    exact h.older hparent

theorem declareAll (h : Ranked table) (source : Source) (scope : ScopeId) (names : List Node) :
    Ranked (table.declareAll source scope names) := by
  induction names generalizing table with
  | nil => exact h
  | cons name rest ih => exact ih (h.declare source scope name)

end Ranked

/-- Below the root no scope of a program is opened. -/
theorem scopeKind?_ne_program {parent : Node} (hparent : node.parent? = some parent) :
    node.scopeKind? ≠ some .program := by
  simp only [scopeKind?, hparent]
  split
  · simp
  · split
    · split <;> simp
    all_goals simp

theorem size_declareAll (table : ScopeTable) (source : Source) (scope : ScopeId)
    (names : List Node) : (table.declareAll source scope names).scopes.size = table.scopes.size := by
  induction names generalizing table with
  | nil => rfl
  | cons name rest ih => rw [declareAll, List.foldl_cons, ← declareAll, ih, size_declare]

/-- Entering a node, from a scope that is there. -/
theorem Ranked.contribute (h : Ranked table) {parent : Node} (hparent : node.parent? = some parent)
    (hscope : scope < table.scopes.size) : Ranked (table.contribute source node scope).1 := by
  have hblock := h.declareAll source scope node.blockNames
  have hopened : Ranked ((table.declareAll source scope node.blockNames).opening node scope).1 := by
    unfold opening
    split
    · rename_i kind hkind
      refine hblock.openScope node ?_ (by rw [size_declareAll]; exact hscope)
      rintro rfl
      exact scopeKind?_ne_program hparent hkind
    · exact hblock
  exact (hopened.declareAll source _ _).declareAll source _ _

/-- The scopes of the finished table are a tree. -/
theorem ranked_build (source : Source) (tree : Tree) : Ranked (build source tree) := by
  refine build_rule (P := fun _ table => Ranked table) (fun _ h => h) ?_ ⟨?_, ?_, ?_⟩
  · intro node parent table scope _ hparent hsound hscope h
    obtain ⟨id, _, hopen⟩ := exists_of_nearest? hscope
    exact h.contribute hparent (hsound.entered hopen).2
  · intro scope hlt
    have hzero : scope = 0 := by simpa [ScopeTable.openScope] using hlt
    subst hzero
    simp [parentOf?_openScope, programScope]
  · intro scope
    rw [kindOf?_openScope]
    simp [programScope, kindOf?]
  · intro scope parent hparent
    rw [parentOf?_openScope] at hparent
    simp [parentOf?] at hparent

/-! ## Climbing -/

/-- `Climbs table scope outward`: from `scope`, going on to the parent as long as there is one
passes the scopes `outward` and ends. -/
inductive Climbs (table : ScopeTable) : ScopeId → List ScopeId → Prop
  | last {scope : ScopeId} : table.parentOf? scope = none → Climbs table scope [scope]
  | up {scope parent : ScopeId} {outward : List ScopeId} : table.parentOf? scope = some parent →
      Climbs table parent outward → Climbs table scope (scope :: outward)

/-- There is one way out. -/
theorem Climbs.unique {outward other : List ScopeId} (h : Climbs table scope outward)
    (h' : Climbs table scope other) : outward = other := by
  induction h generalizing other with
  | last hnone =>
      cases h' with
      | last => rfl
      | up hsome => simp [hnone] at hsome
  | up hsome _ ih =>
      cases h' with
      | last hnone => simp [hnone] at hsome
      | up hsome' hrest =>
          rw [hsome] at hsome'
          cases hsome'
          rw [ih hrest]

/-- Where parents are older, the scopes on the path are those of the climb. -/
theorem Ranked.climbs (h : Ranked table) (scope : ScopeId) :
    Climbs table scope (table.path scope) := by
  induction scope using Nat.strongRecOn with
  | ind scope ih =>
      rw [path]
      cases hparent : table.parentOf? scope with
      | none =>
          rw [show (table.scopes[scope]?).bind Scope.parent? = none from hparent]
          exact .last hparent
      | some parent =>
          have hlt := h.older hparent
          rw [show (table.scopes[scope]?).bind Scope.parent? = some parent from hparent]
          simp only [if_pos hlt]
          exact .up hparent (ih parent hlt)

/-! ## The finished table -/

/-- What the parts of a table say together. -/
structure Represented (source : Source) (tree : Tree) (table : ScopeTable) : Prop where
  /-- Only the first scope is the program. -/
  program : ∀ scope, table.kindOf? scope = some .program ↔ scope = programScope
  /-- Only the first scope has no parent. -/
  rooted : ∀ scope < table.scopes.size, table.parentOf? scope = none ↔ scope = programScope
  older : ∀ scope parent, table.parentOf? scope = some parent → parent < scope
  /-- A scope sends a name to a binding just if the binding has the name and the scope. -/
  names : ∀ scope name binding, table.boundIn? scope name = some binding ↔
    table.bindings[binding]? = some ⟨name, scope⟩
  /-- No two bindings have the name and the scope in common. -/
  distinct : ∀ (a b : BindingId) (x y : Binding), table.bindings[a]? = some x → table.bindings[b]? = some y →
    x.name = y.name → x.scope = y.scope → a = b
  /-- Every binding is found in its own scope. -/
  found : ∀ binding entry, table.bindings[binding]? = some entry →
    entry.scope < table.scopes.size ∧ table.boundIn? entry.scope entry.name = some binding
  /-- A declaring node stands for a binding of its text. -/
  declared : ∀ node binding, Within (root tree) node → table.declaredAt? node = some binding →
    node.text source ≠ "" ∧
      ∃ entry, table.bindings[binding]? = some entry ∧ entry.name = node.text source

theorem lt_size_of_boundIn? {name : String} {binding : BindingId}
    (h : table.boundIn? scope name = some binding) : scope < table.scopes.size := by
  obtain ⟨entry, hentry, _⟩ := Option.bind_eq_some_iff.mp h
  exact (Array.getElem?_eq_some_iff.mp hentry).1

theorem represented_build (source : Source) (tree : Tree) :
    Represented source tree (build source tree) := by
  have hsound := sound_build source tree
  have hranked := ranked_build source tree
  refine {
    program := fun _ => hranked.program
    rooted := fun _ hlt => hranked.rooted hlt
    older := fun _ _ => hranked.older
    names := fun _ _ _ => hsound.names
    distinct := ?distinct, found := ?found, declared := ?declared }
  case distinct =>
    rintro a b ⟨name, scope⟩ ⟨_, _⟩ ha hb rfl rfl
    have hsame := (hsound.names.mpr ha).symm.trans (hsound.names.mpr hb)
    exact Option.some.inj hsame
  case found =>
    rintro binding ⟨name, scope⟩ hentry
    have hbound := hsound.names.mpr hentry
    exact ⟨lt_size_of_boundIn? hbound, hbound⟩
  case declared =>
    intro node binding hnode hdeclared
    obtain ⟨scope, hentry, hne, _⟩ := hsound.declared hnode hdeclared
    exact ⟨hne, _, hentry, rfl⟩

/-- A name means the first binding on the way out of the scope. -/
theorem Ranked.lookup?_eq_some_iff (h : Ranked table) (hnames : ∀ scope name binding,
      table.boundIn? scope name = some binding ↔ table.bindings[binding]? = some ⟨name, scope⟩)
    {outward : List ScopeId} (hout : Climbs table scope outward) {name : String}
    {binding : BindingId} :
    table.lookup? name scope = some binding ↔
      ∃ nearer holder farther, outward = nearer ++ holder :: farther ∧
        table.bindings[binding]? = some ⟨name, holder⟩ ∧
        ∀ inner ∈ nearer, table.boundIn? inner name = none := by
  rw [lookup?, (h.climbs scope).unique hout, List.findSome?_eq_some_iff]
  simp only [hnames]

theorem Ranked.lookup?_eq_none_iff (h : Ranked table) {outward : List ScopeId}
    (hout : Climbs table scope outward) {name : String} :
    table.lookup? name scope = none ↔ ∀ outer ∈ outward, table.boundIn? outer name = none := by
  rw [lookup?, (h.climbs scope).unique hout, List.findSome?_eq_none_iff]

/-- The parts of the finished table fit together.  From every scope the climb over the parents ends,
and a name that is looked up means the binding of it that is met first; it has no meaning just if no
scope on the way binds it. -/
theorem represented_lookup (source : Source) (tree : Tree) :
    Represented source tree (build source tree) ∧
    ∀ scope < (build source tree).scopes.size, ∃ outward,
      (Climbs (build source tree) scope outward ∧
        ∀ other, Climbs (build source tree) scope other → other = outward) ∧
      ∀ name,
        (∀ binding, (build source tree).lookup? name scope = some binding ↔
          ∃ nearer holder farther, outward = nearer ++ holder :: farther ∧
            (build source tree).bindings[binding]? = some ⟨name, holder⟩ ∧
            ∀ inner ∈ nearer, (build source tree).boundIn? inner name = none) ∧
        ((build source tree).lookup? name scope = none ↔
          ∀ outer ∈ outward, (build source tree).boundIn? outer name = none) := by
  have hrepresented := represented_build source tree
  have hranked := ranked_build source tree
  refine ⟨hrepresented, fun scope _ => ?_⟩
  have hout := hranked.climbs scope
  refine ⟨_, ⟨hout, fun other hother => hother.unique hout⟩, fun name => ⟨fun binding => ?_, ?_⟩⟩
  · exact hranked.lookup?_eq_some_iff hrepresented.names hout
  · exact hranked.lookup?_eq_none_iff hout

/-- The test function, seen from the callback inside the other one, is bound two scopes further out. -/
theorem represented_lookup_sample :
    2 < (build Sample.source Sample.tree).scopes.size ∧
    (build Sample.source Sample.tree).lookup? "test" 2 = some 0 ∧
    ∃ nearer farther, Climbs (build Sample.source Sample.tree) 2 (nearer ++ 0 :: farther) ∧
      (build Sample.source Sample.tree).bindings[0]? = some ⟨"test", 0⟩ ∧
      ∀ inner ∈ nearer, (build Sample.source Sample.tree).boundIn? inner "test" = none := by
  have hlt : 2 < (build Sample.source Sample.tree).scopes.size := by decide +kernel
  have hlookup : (build Sample.source Sample.tree).lookup? "test" 2 = some 0 := by decide +kernel
  have hentry : (build Sample.source Sample.tree).bindings[0]? = some ⟨"test", 0⟩ := by
    decide +kernel
  obtain ⟨outward, ⟨hout, _⟩, hmeans⟩ :=
    (represented_lookup Sample.source Sample.tree).2 2 hlt
  obtain ⟨nearer, holder, farther, rfl, hfound, hfree⟩ := ((hmeans "test").1 0).mp hlookup
  rw [hentry] at hfound
  cases hfound
  exact ⟨hlt, hlookup, nearer, farther, hout, hentry, hfree⟩

end ScopeTable

end JestMigration
