/-
# `Proofs.Scope.Capture` — where a name that is put in refers to

When a parameter of a new name is put into some scopes, the name refers, seen
from a node, to the nearest scope that has got it or had it before
(`bindingScope?`; with nothing put in, that is the scope of what is looked up,
`Sound.bindingScope?_nil`).  It refers to the scope of a node further out just if
no scope that is opened on the way has the name (`Sound.bindingScope?_iff`).
-/
import JestMigration.Proofs.Scope.Resolve

namespace JestMigration

namespace ScopeTable

open Node

/-- The scopes from one scope out to another one, which is left out. -/
def inside (table : ScopeTable) (outer scope : ScopeId) : List ScopeId :=
  (table.path scope).takeWhile fun candidate => candidate != outer

/-- The scope that a name refers to, seen from a scope, where it is put into some scopes. -/
def bindingScope? (table : ScopeTable) (name : String) (added : List ScopeId) (scope : ScopeId) :
    Option ScopeId :=
  (table.path scope).find? fun candidate =>
    added.contains candidate || (table.boundIn? candidate name).isSome

namespace Sound

variable {source : Source} {tree : Tree} {bound : Nat} {table : ScopeTable} {top node : Node}
  {own : ScopeId}

/-- A name that is not put in refers to the scope of what is looked up. -/
theorem bindingScope?_nil (h : Sound source tree bound table) (name : String) (scope : ScopeId) :
    table.bindingScope? name [] scope = (table.lookup? name scope).bind fun binding =>
      (table.bindings[binding]?).map Binding.scope := by
  rw [bindingScope?, lookup?]
  induction table.path scope with
  | nil => rfl
  | cons candidate rest ih =>
      rw [List.find?_cons, List.findSome?_cons]
      cases hbound : table.boundIn? candidate name with
      | none => exact ih
      | some binding =>
          show some candidate = (table.bindings[binding]?).map Binding.scope
          rw [h.names.mp hbound]
          rfl

/-- Between a node and the scope of a node above there are the scopes opened on the way. -/
theorem path_split (h : Sound source tree bound table) (htop : Within (root tree) top)
    (hnode : Within top node) (hopen : table.openedAt? top = some own) :
    ∃ outer, table.path (table.scopeOf node) =
        table.inside own (table.scopeOf node) ++ own :: outer ∧
      ∀ scope, scope ∈ table.inside own (table.scopeOf node) ↔
        ∃ mid, Within top mid ∧ mid ≠ top ∧ Within mid node ∧ table.openedAt? mid = some scope := by
  obtain ⟨inner, hlineage, hinner⟩ := exists_lineage_append hnode
  have hpath := h.path_eq (htop.trans hnode) (h.nearest?_lineage (htop.trans hnode))
  rw [hlineage, lineage, List.filterMap_append, List.filterMap_cons,
    show table.opened.lookup top.id = some own from hopen] at hpath
  have hmem : ∀ scope, scope ∈ inner.filterMap (fun id => table.opened.lookup id) ↔
      ∃ mid, Within top mid ∧ mid ≠ top ∧ Within mid node ∧ table.openedAt? mid = some scope := by
    intro scope
    rw [List.mem_filterMap]
    constructor
    · rintro ⟨id, hid, hscope⟩
      obtain ⟨mid, hmid, hne, hdown, rfl⟩ := hinner id hid
      exact ⟨mid, hmid, hne, hdown, hscope⟩
    · rintro ⟨mid, hmid, hne, hdown, hscope⟩
      refine ⟨mid.id, ?_, hscope⟩
      have hid : mid.id ∈ node.lineage :=
        (mem_lineage_iff (htop.trans hnode)).mpr ⟨mid, htop.trans hmid, hdown, rfl⟩
      rw [hlineage] at hid
      rcases List.mem_append.mp hid with hid | hid
      · exact hid
      · exact absurd (hmid.eq_of_id_le (le_of_mem_lineage htop hid)) hne
  have hout : ∀ scope ∈ inner.filterMap (fun id => table.opened.lookup id), scope ≠ own := by
    rintro scope hscope rfl
    obtain ⟨mid, hmid, hne, _, hopen'⟩ := (hmem scope).mp hscope
    exact hne ((htop.trans hmid).eq_of_id htop (h.injective hopen' hopen))
  have hinside : table.inside own (table.scopeOf node) =
      inner.filterMap fun id => table.opened.lookup id := by
    rw [inside, hpath, List.takeWhile_append_of_pos (by simpa using hout),
      List.takeWhile_cons_of_neg (by simp), List.append_nil]
  rw [hinside]
  exact ⟨_, hpath, hmem⟩

/-- A name that is put into a scope refers to it from wherever no scope on the way has the name. -/
theorem bindingScope?_iff (h : Sound source tree bound table) (htop : Within (root tree) top)
    (hnode : Within top node) (hopen : table.openedAt? top = some own) {added : List ScopeId}
    (hadded : own ∈ added) (name : String) :
    table.bindingScope? name added (table.scopeOf node) = some own ↔
      ∀ scope ∈ table.inside own (table.scopeOf node),
        scope ∉ added ∧ table.boundIn? scope name = none := by
  obtain ⟨outer, hpath, _⟩ := h.path_split htop hnode hopen
  have hne : ∀ scope ∈ table.inside own (table.scopeOf node), scope ≠ own := by
    intro scope hscope
    exact bne_iff_ne.mp (List.all_eq_true.mp List.all_takeWhile scope hscope)
  have hthere : (added.contains own || (table.boundIn? own name).isSome) = true := by
    simp [hadded]
  rw [bindingScope?, hpath, List.find?_append, List.find?_cons, hthere]
  constructor
  · intro hfound scope hscope
    cases hinner : (table.inside own (table.scopeOf node)).find? fun candidate =>
        added.contains candidate || (table.boundIn? candidate name).isSome with
    | none => simpa using List.find?_eq_none.mp hinner scope hscope
    | some other =>
        rw [hinner] at hfound
        cases hfound
        exact absurd rfl (hne own (List.mem_of_find?_eq_some hinner))
  · intro hfree
    have hinner : (table.inside own (table.scopeOf node)).find? (fun candidate =>
        added.contains candidate || (table.boundIn? candidate name).isSome) = none := by
      rw [List.find?_eq_none]
      intro scope hscope
      obtain ⟨hout, hnone⟩ := hfree scope hscope
      simp [hout, hnone]
    rw [hinner]
    rfl

end Sound

end ScopeTable

end JestMigration
