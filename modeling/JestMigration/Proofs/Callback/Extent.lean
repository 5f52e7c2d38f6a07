/-
# `Proofs.Callback.Extent` — how far the plan for a callback reaches

The changes of a callback are about its parameters or about its body, and these
are two children of one node.  A change because of a reference stays in the
body (`Request.inside`): nothing is edited above it, and a line that is deleted
ends at the braces.  A change of the parameter stays out of the body
(`apart_body`).  Together no change reaches out of the callback
(`inside_of_plan`).
-/
import JestMigration.Proofs.Callback.Changes
import JestMigration.Proofs.Scope.Resolve

namespace JestMigration

open Node

/-! ## Parameters and body -/

namespace Callback

variable {callback child body parameter node : Node}

/-- A parameter stands in the child for a single parameter or in the list. -/
theorem exists_of_mem_parameters (h : parameter ∈ callback.parameters) :
    ∃ child, (callback.child? .parameter = some child ∨ callback.child? .parameters = some child) ∧
      Within child parameter := by
  unfold parameters at h
  split at h
  · rename_i child hchild
    exact ⟨child, .inl hchild, List.mem_singleton.mp h ▸ .self⟩
  · split at h
    · rename_i list hlist
      exact ⟨list, .inr hlist, within_of_mem_namedChildren h⟩
    · exact absurd h List.not_mem_nil

theorem mem_children_of_parameter
    (h : callback.child? .parameter = some child ∨ callback.child? .parameters = some child) :
    child ∈ callback.children := by
  rcases h with h | h
  · exact mem_children_of_child? h
  · exact mem_children_of_child? h

theorem below_of_mem_parameters (h : parameter ∈ callback.parameters) :
    Within callback parameter ∧ parameter ≠ callback := by
  obtain ⟨child, hchild, hin⟩ := exists_of_mem_parameters h
  have hmem := mem_children_of_parameter hchild
  refine ⟨(Within.of_mem_children hmem).trans hin, ?_⟩
  rintro rfl
  have hlt := (id_bounds_of_mem_children hmem).1
  have hle := hin.id_bounds.1
  omega

theorem parameter_ne_body
    (hchild : callback.child? .parameter = some child ∨ callback.child? .parameters = some child)
    (hbody : callback.child? .body = some body) : child ≠ body := by
  rcases hchild with hchild | hchild
  · exact child?_ne (by decide) hchild hbody
  · exact child?_ne (by decide) hchild hbody

/-- What stands with the parameters branches off from the body. -/
theorem apart_body {top : Node} (hcallback : Within top callback)
    (hchild : callback.child? .parameter = some child ∨ callback.child? .parameters = some child)
    (hin : Within child node) (hbody : callback.child? .body = some body) :
    Apart top node body :=
  ⟨callback, child, body, hcallback, mem_children_of_parameter hchild, mem_children_of_child? hbody,
    parameter_ne_body hchild hbody, hin, .self⟩

end Callback

/-! ## Changes -/

section

variable {source : Source} {tree : Tree} {callback body node : Node} {span : Span}
  {change : Change}

/-- The span lies in a node, and ends between characters if all nodes do. -/
structure Inside (source : Source) (tree : Tree) (node : Node) (span : Span) : Prop where
  contained : node.span.contains span = true
  readable : tree.Readable source → (source.slice? span).isSome

theorem Inside.of_node (hnest : tree.WellNested source) (hcallback : Within (root tree) callback)
    (h : Within callback node) : Inside source tree callback node.span where
  contained := hnest.contains hcallback h
  readable := fun hread => hread node (mem_nodes_of_within (hcallback.trans h))

/-- What is asked for because of a reference in the body of a function stays in the body. -/
theorem Request.inside (hnest : tree.WellNested source) {reference : Node}
    (hcallback : Within (root tree) callback) (hliteral : callback.kind.isCallbackLiteral = true)
    (hbody : body ∈ callback.children) (href : Within body reference)
    (h : Request reference change) : Inside source tree body (change.span source) := by
  have htop := hcallback.child hbody
  rcases h.in_body source hcallback hliteral hbody href with
    ⟨node, _, hin, hspan⟩ | ⟨_, statement, list, _, _, hin, hkind, hlist, hislist, hin', hspan⟩
  · rw [hspan]
    exact .of_node hnest htop hin
  · have hwithin := htop.trans hin
    have hplain : ¬ (body.kind = .switchCase ∨ body.kind = .switchDefault) := by
      intro hcase
      have hparent := hnest.cases body (mem_nodes_of_within htop) hcase
      simp only [parent?_of_mem_children hbody, Option.any_some, beq_iff_eq] at hparent
      simp [hparent, Kind.isCallbackLiteral] at hliteral
    obtain ⟨block, _, hshelter⟩ := hnest.exists_shelter hwithin hkind hlist hislist
      (hin'.ne_root hbody)
    have hgrown := Source.grown_statementLine hshelter.start_le
    rw [hspan]
    refine ⟨?_, fun hread => hgrown.slice?_isSome (hread _ (mem_nodes_of_within hwithin))⟩
    -- The body is around the block that holds the statement.
    rcases hshelter.around hin with rfl | hblock | hcase
    · have hlt := (id_bounds_of_mem_children (mem_children_of_parent? hwithin hlist).1).1
      have hle := hin'.id_bounds.1
      omega
    · exact Span.contains_trans (hnest.contains htop hblock) (hshelter.grown hgrown)
    · exact absurd hcase hplain

/-- Every change in the plan for a callback is inside the callback. -/
theorem Callback.inside_of_plan {table : ScopeTable} {completion : Bool}
    (hnest : tree.WellNested source) (hcallback : Within (root tree) callback)
    (hliteral : callback.kind.isCallbackLiteral = true)
    (h : change ∈ (plan table source callback completion).changes) :
    Inside source tree callback (change.span source) := by
  obtain ⟨first, rest, body, hparameters, _, hbody, horigin⟩ := origin_of_plan h
  cases horigin with
  | reference _ _ href hrequest =>
      have hin := ScopeTable.within_of_mem_references href
      have hinside := hrequest.inside hnest hcallback hliteral (mem_children_of_child? hbody) hin
      exact ⟨Span.contains_trans (hnest.contains hcallback (within_of_child? hbody))
        hinside.contained, hinside.readable⟩
  | rename =>
      have hfirst : first ∈ callback.parameters := by simp [hparameters]
      exact .of_node hnest hcallback (below_of_mem_parameters hfirst).1
  | remove hnode _ =>
      exact .of_node hnest hcallback (.of_mem_children (mem_children_of_parameter hnode))

end

end JestMigration
