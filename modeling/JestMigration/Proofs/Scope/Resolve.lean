/-
# `Proofs.Scope.Resolve` — what a name means in the finished table

A name is looked up from the node where it stands, upwards: `lookup?_eq` reads
its meaning off the lineage of the node.  So a name below a node that binds it
means something that is bound at or below that node
(`Sound.resolve?_of_hasName`), and a name that is declared further out has no
reference there (`Sound.not_mem_references`).
-/
import JestMigration.Proofs.Scope.Build

namespace JestMigration

namespace ScopeTable

open Node

variable {source : Source} {tree : Tree} {table : ScopeTable} {node : Node}

/-! ## Looking up a name -/

/-- Every node has the scope of the program around it. -/
theorem Sound.nearest?_lineage {bound : Nat} (h : Sound source tree bound table)
    (hnode : Within (root tree) node) :
    table.nearest? node.lineage = some (table.scopeOf node) := by
  have hroot : 0 ∈ node.lineage := (mem_lineage_iff hnode).mpr ⟨root tree, .self, hnode, rfl⟩
  have hsome : (table.nearest? node.lineage).isSome :=
    List.findSome?_isSome_iff.mpr ⟨0, hroot, by rw [h.rooted]; rfl⟩
  obtain ⟨scope, hscope⟩ := Option.isSome_iff_exists.mp hsome
  have hof : table.scopeOf node = scope := by
    change (table.nearest? node.lineage).getD programScope = scope
    rw [hscope]
    rfl
  rw [hscope, hof]

/-- A name means what the nearest node above that binds it says. -/
theorem Sound.lookup?_eq {bound : Nat} (h : Sound source tree bound table)
    (hnode : Within (root tree) node) (name : String) :
    table.lookup? name (table.scopeOf node) = node.lineage.findSome? fun id =>
      (table.opened.lookup id).bind fun scope => table.boundIn? scope name := by
  rw [lookup?, h.path_eq hnode (h.nearest?_lineage hnode), ← List.head?_filterMap,
    List.filterMap_filterMap, List.head?_filterMap]

/-- A name used below a node that binds it refers to a scope opened at or below that node. -/
theorem Sound.resolve?_of_hasName {bound : Nat} (h : Sound source tree bound table)
    {top : Node} {binding : BindingId} (htop : Within (root tree) top) (hnode : Within top node)
    (hhas : table.HasName top (node.text source))
    (hresolve : table.resolve? source node = some binding) :
    ∃ mid scope, Within top mid ∧ table.openedAt? mid = some scope ∧
      table.bindings[binding]? = some ⟨node.text source, scope⟩ := by
  obtain ⟨inner, hlineage, hinner⟩ := exists_lineage_append hnode
  obtain ⟨own, hopen, hbound⟩ := hhas
  obtain ⟨found, hfound⟩ := Option.isSome_iff_exists.mp hbound
  rw [resolve?, h.lookup?_eq (htop.trans hnode), hlineage, List.findSome?_append,
    Option.or_eq_some_iff] at hresolve
  rcases hresolve with hbelow | ⟨_, hthere⟩
  · obtain ⟨id, hid, hsome⟩ := List.exists_of_findSome?_eq_some hbelow
    obtain ⟨mid, hmid, _, _, rfl⟩ := hinner id hid
    obtain ⟨scope, hscope, hname⟩ := Option.bind_eq_some_iff.mp hsome
    exact ⟨mid, scope, hmid, hscope, h.names.mp hname⟩
  · rw [lineage, List.findSome?_cons, show table.opened.lookup top.id = some own from hopen] at hthere
    simp only [Option.bind_some, hfound] at hthere
    cases hthere
    exact ⟨top, own, .self, hopen, h.names.mp hfound⟩

/-! ## References -/

theorem mem_references_iff {top reference : Node} {binding : BindingId} :
    reference ∈ table.references source top binding ↔
      ∃ entry, table.bindings[binding]? = some entry ∧ Within top reference ∧
        (reference.kind = .identifier ∨ reference.kind = .shorthandProperty) ∧
        reference.text source = entry.name ∧ table.declaredAt? reference = none ∧
        table.resolve? source reference = some binding := by
  unfold references
  cases table.bindings[binding]? with
  | none => simp
  | some entry =>
      simp [List.mem_mergeSort, List.mem_filter, isReference, mem_nodes_iff, and_assoc]

theorem within_of_mem_references {top reference : Node} {binding : BindingId}
    (h : reference ∈ table.references source top binding) : Within top reference := by
  obtain ⟨_, _, hin, _⟩ := mem_references_iff.mp h
  exact hin

/-- A reference is spelled like the name it refers to. -/
theorem Sound.text_of_mem_references {bound : Nat} (h : Sound source tree bound table)
    {top name reference : Node} {binding : BindingId} (hname : Within (root tree) name)
    (hdeclared : table.declaredAt? name = some binding)
    (href : reference ∈ table.references source top binding) :
    reference.text source = name.text source ∧ name.text source ≠ "" := by
  obtain ⟨entry, hentry, _, _, htext, _⟩ := mem_references_iff.mp href
  obtain ⟨scope, hbinding, hne, _⟩ := h.declared hname hdeclared
  rw [hbinding] at hentry
  cases hentry
  exact ⟨htext, hne⟩

/-- Below a node that binds the name again, a name that is declared outside is not referred to. -/
theorem Sound.not_mem_references {bound : Nat} (h : Sound source tree bound table)
    {top name inner reference : Node} {binding : BindingId}
    (hname : Within (root tree) name) (hdeclared : table.declaredAt? name = some binding)
    (hinner : Within (root tree) inner) (hhas : table.HasName inner (name.text source))
    (hout : ¬ Within inner name) (hbelow : Within inner reference) :
    reference ∉ table.references source top binding := by
  intro href
  obtain ⟨htext, _⟩ := h.text_of_mem_references hname hdeclared href
  obtain ⟨_, _, _, _, _, _, hresolve⟩ := mem_references_iff.mp href
  obtain ⟨mid, opened, hmid, hscope, hentry⟩ :=
    h.resolve?_of_hasName hinner hbelow (htext ▸ hhas) hresolve
  obtain ⟨declaring, hentry', _, id, hid, hopens⟩ := h.declared hname hdeclared
  -- The scope of the binding is opened below `inner`, and around the name that declares it.
  rw [hentry] at hentry'
  have hscopes : opened = declaring := congrArg Binding.scope (Option.some.inj hentry')
  rw [hscopes] at hscope
  obtain ⟨above, habove, haround, rfl⟩ := (mem_lineage_iff hname).mp hid
  have hsame : above = mid :=
    habove.eq_of_id (hinner.trans hmid) (h.injective hopens hscope)
  exact hout (hmid.trans (hsame ▸ haround))

end ScopeTable

end JestMigration
