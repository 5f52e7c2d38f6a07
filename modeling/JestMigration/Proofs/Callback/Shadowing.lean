/-
# `Proofs.Callback.Shadowing` — a name that is bound again is left alone

In the body of a callback with the context `t` another `t` may be bound: by a
parameter or the name of an inner function, by a declaration in a block, by a
loop or a `catch`.  Whatever binds it, the scope table has a scope for the node,
with the name in it (`ScopeTable.hasName_of_binds`), and below that node no
reference is one to the context (`ScopeTable.Sound.not_mem_references`).

Edits of the callback then stay out of the node.  An edit takes in the reference
that asks for it, or the parameter, and neither is in the node: the reference is
not below it, a name has nothing below itself, and parameters are no part of the
body.
-/
import JestMigration.Proofs.Callback.Coverage

namespace JestMigration

open Node

namespace Callback

variable {source : Source} {tree : Tree} {callback first body inner reference node child : Node}
  {rest : List Node} {completion : Bool} {change : Change} {span : Span}

/-- What stands with the parameters is not in a node of the body. -/
theorem not_contains_parameter (hnest : tree.WellNested source)
    (hcallback : Within (root tree) callback)
    (hchild : callback.child? .parameter = some child ∨ callback.child? .parameters = some child)
    (hin : Within child node) (hbody : callback.child? .body = some body)
    (hinner : Within body inner) (hlt : node.span.start < node.span.stop) :
    inner.span.contains node.span = false := by
  have hseparate := hnest.separate (apart_body hcallback hchild hin hbody)
  have hspan := hnest.span_le (hcallback.trans (within_of_child? hbody)) hinner
  rw [← Bool.not_eq_true, Span.contains_iff]
  omega

/-- A span that takes in a name outside a node is not in the node. -/
theorem not_contains_mention (hnest : tree.WellNested source) (hleaf : tree.LeafNames)
    (hmention : Mention source tree reference) (hinner : Within (root tree) inner)
    (hout : ¬ Within inner reference) (hspan : span.contains reference.span = true) :
    inner.span.contains span = false := by
  rw [← Bool.not_eq_true]
  intro hcontains
  have hboth := Span.contains_iff.mp (Span.contains_trans hcontains hspan)
  have hlt := hmention.start_lt_stop
  rcases hnest.compare hinner hmention.within with hdown | hup | hseparate
  · exact hout hdown
  · exact hout (hmention.eq_of_within hleaf hup ▸ .self)
  · omega

/-- A node of the body that binds the context's name again has no reference to the context. -/
theorem not_mem_references_of_hasName {binding : BindingId}
    (hcallback : Within (root tree) callback) (hfirst : first ∈ callback.parameters)
    (hbody : callback.child? .body = some body) (hinner : Within body inner)
    (hhas : (ScopeTable.build source tree).HasName inner ((patternOf first).text source))
    (hdeclared : (ScopeTable.build source tree).declaredAt? (patternOf first) = some binding)
    (hbelow : Within inner reference) :
    reference ∉ (ScopeTable.build source tree).references source body binding := by
  obtain ⟨child, hchild, hin⟩ := exists_of_mem_parameters hfirst
  have happart := apart_body hcallback hchild (hin.trans (within_patternOf first)) hbody
  have hname := (hcallback.trans (below_of_mem_parameters hfirst).1).trans (within_patternOf first)
  exact (ScopeTable.sound_build source tree).not_mem_references hname hdeclared
    ((hcallback.trans (within_of_child? hbody)).trans hinner) hhas
    (fun hwithin => happart.not_within .self (hinner.trans hwithin)) hbelow

/-- The changes of a callback stay out of a node that binds the context's name again. -/
theorem not_contains_of_plan (hnest : tree.WellNested source) (hleaf : tree.LeafNames)
    (hcallback : Within (root tree) callback)
    (hliteral : callback.kind.isCallbackLiteral = true)
    (hparameters : callback.parameters = first :: rest)
    (hkind : (patternOf first).kind = .identifier) (hbody : callback.child? .body = some body)
    (hinner : Within body inner)
    (hhas : (ScopeTable.build source tree).HasName inner ((patternOf first).text source))
    (h : change ∈ (plan (ScopeTable.build source tree) source callback completion).changes) :
    inner.span.contains (change.span source) = false := by
  have hfirst : first ∈ callback.parameters := by simp [hparameters]
  have htop := hcallback.trans (below_of_mem_parameters hfirst).1
  have hname := htop.trans (within_patternOf first)
  have hbodyTop := hcallback.trans (within_of_child? hbody)
  cases hdeclared : (ScopeTable.build source tree).declaredAt? (patternOf first) with
  | none => exact absurd h (by simp [plan, hparameters, hkind, namedPlan, hdeclared])
  | some binding =>
      obtain ⟨first', _, body', hparameters', _, hbody', horigin⟩ := origin_of_plan h
      rw [hparameters] at hparameters'
      rw [hbody] at hbody'
      cases hparameters'
      cases hbody'
      cases horigin with
      | @reference name reference found _ hlocal hfound href hrequest =>
          have hsame : name = patternOf first := by
            cases hlocal with
            | named => rfl
            | member hpattern => simp [hkind] at hpattern
          rw [hsame, hdeclared] at hfound
          cases hfound
          obtain ⟨hmention, hin⟩ := Mention.of_mem_references hbodyTop hname hdeclared href
          refine not_contains_mention hnest hleaf hmention (hbodyTop.trans hinner) ?_
            (hrequest.contains_reference hnest hcallback hliteral (mem_children_of_child? hbody) hin)
          intro hbelow
          exact not_mem_references_of_hasName hcallback hfirst hbody hinner hhas hdeclared
            hbelow href
      | rename =>
          obtain ⟨child, hchild, hin⟩ := exists_of_mem_parameters hfirst
          exact not_contains_parameter hnest hcallback hchild hin hbody hinner
            (start_lt_stop_of_declaredAt? hnest htop (within_patternOf first) hdeclared)
      | remove hnode haround =>
          exact not_contains_parameter hnest hcallback hnode .self hbody hinner
            (start_lt_stop_of_declaredAt? hnest (hcallback.child (mem_children_of_parameter hnode))
              (haround.trans (within_patternOf first)) hdeclared)

/-- A node in the body of a callback that binds the name of the context again has it in its scope.
Such a node is left alone: there is no reference to the context at or below it, and carrying out the
plan records no edit inside. -/
theorem no_edit_in_shadow (source : Source) (tree : Tree) (callback first body inner : Node)
    (rest : List Node) (hnest : tree.WellNested source) (hleaf : tree.LeafNames)
    (hcallback : Within (root tree) callback) (hliteral : callback.kind.isCallbackLiteral = true)
    (hparameters : callback.parameters = first :: rest)
    (hkind : (patternOf first).kind = .identifier) (hbody : callback.child? .body = some body)
    (hinner : Within body inner) :
    (∀ name, Binds source tree inner name → name.text source ≠ "" →
      name.text source = (patternOf first).text source →
        (ScopeTable.build source tree).HasName inner ((patternOf first).text source)) ∧
    ((ScopeTable.build source tree).HasName inner ((patternOf first).text source) →
      (∀ binding, (ScopeTable.build source tree).declaredAt? (patternOf first) = some binding →
        ∀ reference, Within inner reference →
          reference ∉ (ScopeTable.build source tree).references source body binding) ∧
      ∀ (completion : Bool) (before after : ChangeSet), before.source = source →
        before.applyAll (plan (ScopeTable.build source tree) source callback completion).changes =
          .ok after →
        ∀ edit ∈ after.edits, edit ∈ before.edits ∨ inner.span.contains edit.span = false) := by
  have hfirst : first ∈ callback.parameters := by simp [hparameters]
  refine ⟨?_, fun hhas => ⟨?_, ?_⟩⟩
  · intro name hbinds hne htext
    rw [← htext]
    exact ScopeTable.hasName_of_binds ((hcallback.trans (within_of_child? hbody)).trans hinner)
      (hinner.ne_root (mem_children_of_child? hbody)) hbinds hne
  · intro binding hdeclared reference hbelow
    exact not_mem_references_of_hasName hcallback hfirst hbody hinner hhas hdeclared hbelow
  · intro completion before after hsource hrun edit hedit
    rcases (ChangeSet.recorded_applyAll hrun).origin edit hedit with hold | ⟨change, hchange, hask⟩
    · exact .inl hold
    · refine .inr ?_
      rw [Change.span_of_edit? hask, hsource]
      exact not_contains_of_plan hnest hleaf hcallback hliteral hparameters hkind hbody hinner hhas
        hchange

theorem no_edit_in_shadow_sample :
    ∃ callback first body inner rest name after,
      (Sample.tree.WellNested Sample.source ∧ Sample.tree.LeafNames ∧
        Within (root Sample.tree) callback ∧ callback.kind.isCallbackLiteral = true ∧
        callback.parameters = first :: rest ∧ (patternOf first).kind = .identifier ∧
        callback.child? .body = some body ∧ Within body inner) ∧
      (Binds Sample.source Sample.tree inner name ∧ name.text Sample.source ≠ "" ∧
        name.text Sample.source = (patternOf first).text Sample.source) ∧
      ChangeSet.applyAll { source := Sample.source }
        (plan (ScopeTable.build Sample.source Sample.tree) Sample.source callback false).changes =
          .ok after ∧
      after.edits ≠ [] ∧ ∀ edit ∈ after.edits, inner.span.contains edit.span = false := by
  have hnest : Sample.tree.WellNested Sample.source := by decide +kernel
  have hleaf : Sample.tree.LeafNames := by decide +kernel
  -- The test inside the other one has a parameter of the same name.
  have hfound : ((root Sample.tree).nodes.any fun callback =>
      callback.kind.isCallbackLiteral && callback.parameters.head?.any fun first =>
        (patternOf first).kind == .identifier && (callback.child? .body).any fun body =>
          body.nodes.any fun inner => inner.isVisited &&
            ((inner.ownNames Sample.source).any fun name => name.text Sample.source != "" &&
              name.text Sample.source == (patternOf first).text Sample.source) &&
            (ChangeSet.applyAll { source := Sample.source } (plan
              (ScopeTable.build Sample.source Sample.tree) Sample.source callback
              false).changes).toOption.any fun after => after.edits != []) = true := by
    decide +kernel
  simp only [List.any_eq_true, Bool.and_eq_true, Option.any_eq_true, bne_iff_ne, beq_iff_eq,
    ChangeSet.toOption_applyAll_eq_some] at hfound
  obtain ⟨callback, hcallback, hliteral, first, hfirst, hkind, body, hbody, inner, hinner,
    ⟨hvisited, name, hname, hne, htext⟩, after, hafter, hsome⟩ := hfound
  obtain ⟨rest, hparameters⟩ := List.head?_eq_some_iff.mp hfirst
  have hwithin := mem_nodes_iff.mp hcallback
  have hbelow := mem_nodes_iff.mp hinner
  have hbinds : Binds Sample.source Sample.tree inner name := .own hvisited hname
  have hshadow := no_edit_in_shadow Sample.source Sample.tree callback first body inner rest hnest
    hleaf hwithin hliteral hparameters hkind hbody hbelow
  have hedits := (hshadow.2 (hshadow.1 name hbinds hne htext)).2 false _ after rfl hafter
  refine ⟨callback, first, body, inner, rest, name, after,
    ⟨hnest, hleaf, hwithin, hliteral, hparameters, hkind, hbody, hbelow⟩, ⟨hbinds, hne, htext⟩,
    hafter, hsome, ?_⟩
  exact fun edit hedit => (hedits edit hedit).resolve_left List.not_mem_nil

end Callback

end JestMigration
