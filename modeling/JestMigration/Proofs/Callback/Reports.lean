/-
# `Proofs.Callback.Reports` — what the plan for a callback reports, and where

The counterpart of `Proofs.Callback.Changes` for diagnostics.  `Report` says at
which nodes the plan for a callback may raise something, and `report_of_plan`
that there is nothing else: at a call or a member expression that begins with a
reference of the context, at the list of parameters, at a pattern that is not
understood, and at the name of a member without a rule.
-/
import JestMigration.Proofs.Callback.Changes

namespace JestMigration

/-! ## Plans and their diagnostics -/

namespace Plan

@[simp] theorem diagnostics_nil : Plan.diagnostics [] = [] := rfl

@[simp] theorem diagnostics_append (first second : Plan) :
    Plan.diagnostics (first ++ second) = first.diagnostics ++ second.diagnostics :=
  List.filterMap_append

@[simp] theorem diagnostics_change (change : Change) : Plan.diagnostics [.change change] = [] := rfl

@[simp] theorem diagnostics_replace (node : Node) (text : String) :
    (Plan.replace node text).diagnostics = [] := rfl

@[simp] theorem diagnostics_warn (source : Source) (node : Node) (finding : Finding) :
    (Plan.warn source node finding).diagnostics = [.ofNode source node finding.message] := rfl

theorem diagnostics_flatMap {α : Type} (items : List α) (plan : α → Plan) :
    Plan.diagnostics (items.flatMap plan) = items.flatMap fun item => (plan item).diagnostics :=
  List.filterMap_flatMap

end Plan

/-- The diagnostic is a finding at the node. -/
def Diagnostic.IsAt (source : Source) (node : Node) (diagnostic : Diagnostic) : Prop :=
  ∃ finding : Finding, diagnostic = .ofNode source node finding.message

open Node

variable {source : Source} {diagnostic : Diagnostic}

theorem Plan.isAt_of_warn {node : Node} {finding : Finding}
    (h : diagnostic ∈ (Plan.warn source node finding).diagnostics) : diagnostic.IsAt source node :=
  ⟨finding, List.mem_singleton.mp h⟩

/-- A call is reported where it begins. -/
theorem Assertion.isAt_of_plan {assertion : Assertion} {completion : String}
    (h : diagnostic ∈ (assertion.plan source completion).diagnostics) :
    diagnostic.IsAt source assertion.call := by
  rw [plan, Plan.diagnostics_append, Plan.diagnostics_change, List.append_nil] at h
  simp only [arityPlan] at h
  split at h
  · exact Plan.isAt_of_warn h
  · exact absurd h List.not_mem_nil

namespace Context

@[simp] theorem diagnostics_renameReference (reference : Node) (target : String) :
    (renameReference source reference target).diagnostics = [] := by
  unfold renameReference
  split <;> rfl

@[simp] theorem Use.diagnostics_follow (completion : Bool) (reference : Node) :
    (follow source completion reference).diagnostics = [] := by
  unfold follow
  split
  · exact diagnostics_renameReference reference completionName
  · rfl

/-- What is reported at one use of a named context. -/
theorem Use.report_of_plan {context : String} {completion : Bool} {reference : Node}
    (h : diagnostic ∈
      ((classify source reference).plan source context completion reference).diagnostics) :
    ∃ node, Head reference node ∧ diagnostic.IsAt source node := by
  have hclass := classified source reference
  generalize classify source reference = use at h hclass
  cases hclass with
  | assertion hmember _ hcall _ =>
      exact ⟨_, .step (.step .self (.inl hmember)) (.inr (callOf?_of_callWithArguments? hcall).1),
        Assertion.isAt_of_plan h⟩
  | unmapped hmember _ hcall _ =>
      rw [plan, Plan.diagnostics_append, diagnostics_follow, List.append_nil] at h
      exact ⟨_, .step (.step .self (.inl hmember)) (.inr (callOf?_of_callWithArguments? hcall).1),
        Plan.isAt_of_warn h⟩
  | endValue | failValue | contextCall => exact absurd h List.not_mem_nil
  | contextAccess | property | whole =>
      rw [plan, diagnostics_follow] at h
      exact absurd h List.not_mem_nil

/-- What is reported at one use of a member. -/
theorem MemberUse.report_of_plan {rule : Rule} {reference : Node} {use : MemberUse}
    (hclass : classify? rule reference = some use)
    (h : diagnostic ∈ (use.plan source).diagnostics) :
    ∃ node, Head reference node ∧ diagnostic.IsAt source node := by
  unfold classify? at hclass
  split at hclass
  · rename_i call hcall
    cases hclass
    exact ⟨call, .step .self (.inr (callOf?_of_callWithArguments? hcall).1),
      Assertion.isAt_of_plan h⟩
  · split at hclass
    · cases hclass
      exact absurd h (by simp [plan])
    · cases hclass
      exact absurd h (by simp [plan])
    · exact absurd hclass (by simp)

namespace Member

variable {table : ScopeTable} {body : Node}

/-- A member that is not converted is reported at its name, or at a reference. -/
theorem report_of_usesAll {plan : Plan} {members : List Member}
    (h : usesAll table source body members = .error plan)
    (hmem : diagnostic ∈ plan.diagnostics) :
    ∃ member ∈ members, diagnostic.IsAt source member.binder ∨
      ∃ binding reference, (Rule.find? member.method).isSome ∧
        table.declaredAt? member.binder = some binding ∧
        reference ∈ table.references source body binding ∧ diagnostic.IsAt source reference := by
  obtain ⟨member, hmember, hobstacle⟩ := exists_obstacle h
  refine ⟨member, hmember, ?_⟩
  cases hobstacle with
  | method => exact .inl (Plan.isAt_of_warn hmem)
  | undeclared => exact absurd hmem List.not_mem_nil
  | value hrule hbinding href _ =>
      exact .inr ⟨_, _, by simp [hrule], hbinding, href, Plan.isAt_of_warn hmem⟩

end Member

end Context

/-! ## Callbacks -/

namespace Callback

open Context

variable {table : ScopeTable} {callback first body : Node} {completion : Bool}

/-- The nodes at which the plan for a callback may report something. -/
inductive Report (table : ScopeTable) (source : Source) (callback first body : Node) : Node → Prop
  | head {name reference node : Node} {binding : BindingId} : Local source first name →
      table.declaredAt? name = some binding → reference ∈ table.references source body binding →
      Head reference node → Report table source callback first body node
  | list {list : Node} : callback.child? .parameters = some list →
      Report table source callback first body list
  | pattern : (patternOf first).kind = .objectPattern →
      Report table source callback first body (patternOf first)
  | binder {members : List Member} {member : Member} : (patternOf first).kind = .objectPattern →
      Member.ofPattern? source (patternOf first) = some members → member ∈ members →
      Report table source callback first body member.binder

theorem report_of_removeParameter (h : diagnostic ∈ (removeParameter source callback).diagnostics) :
    ∃ list, callback.child? .parameters = some list ∧ diagnostic.IsAt source list := by
  unfold removeParameter at h
  split at h
  · exact absurd h List.not_mem_nil
  · split at h
    · exact absurd h List.not_mem_nil
    · rename_i list hlist
      split at h
      · exact absurd h List.not_mem_nil
      · exact absurd h List.not_mem_nil
      · exact ⟨list, hlist, Plan.isAt_of_warn h⟩

theorem report_of_namedPlan (hkind : (patternOf first).kind = .identifier)
    (h : diagnostic ∈
      (namedPlan table source callback first (patternOf first) completion).diagnostics) :
    ∃ body node, callback.child? .body = some body ∧
      Report table source callback first body node ∧ diagnostic.IsAt source node := by
  cases hdeclared : table.declaredAt? (patternOf first) with
  | none => exact absurd h (by simp [namedPlan, hdeclared])
  | some binding =>
      cases hbody : callback.child? .body with
      | none => exact absurd h (by simp [namedPlan, hdeclared, hbody])
      | some body =>
          simp only [namedPlan, hdeclared, hbody, Plan.diagnostics_append,
            Plan.diagnostics_flatMap] at h
          rcases List.mem_append.mp h with h | h
          · obtain ⟨use, huse, hreport⟩ := List.mem_flatMap.mp h
            obtain ⟨reference, href, rfl⟩ := List.mem_map.mp huse
            obtain ⟨node, hhead, hat⟩ := Use.report_of_plan hreport
            exact ⟨body, node, rfl, .head (.named hkind) hdeclared href hhead, hat⟩
          · split at h
            · exact absurd h List.not_mem_nil
            · split at h
              · exact absurd h List.not_mem_nil
              · obtain ⟨list, hlist, hat⟩ := report_of_removeParameter h
                exact ⟨body, list, rfl, .list hlist, hat⟩

theorem report_of_destructuredPlan (hkind : (patternOf first).kind = .objectPattern)
    (h : diagnostic ∈
      (destructuredPlan table source callback first (patternOf first) completion).diagnostics) :
    ∃ body node, callback.child? .body = some body ∧
      Report table source callback first body node ∧ diagnostic.IsAt source node := by
  cases hbody : callback.child? .body with
  | none => exact absurd h (by simp [destructuredPlan, hbody])
  | some body =>
      cases hmembers : Member.ofPattern? source (patternOf first) with
      | none =>
          simp only [destructuredPlan, hbody, hmembers] at h
          exact ⟨body, _, rfl, .pattern hkind, Plan.isAt_of_warn h⟩
      | some members =>
          cases hall : Member.usesAll table source body members with
          | error plan =>
              simp only [destructuredPlan, hbody, hmembers, hall] at h
              obtain ⟨member, hmember, hat | ⟨binding, reference, hrule, hdeclared, href, hat⟩⟩ :=
                Member.report_of_usesAll hall h
              · exact ⟨body, _, rfl, .binder hkind hmembers hmember, hat⟩
              · exact ⟨body, reference, rfl,
                  .head (.member hkind hmembers hmember hrule) hdeclared href .self, hat⟩
          | ok all =>
              simp only [destructuredPlan, hbody, hmembers, hall, Plan.diagnostics_append,
                Plan.diagnostics_flatMap] at h
              rcases List.mem_append.mp h with h | h
              · obtain ⟨entry, hentry, h⟩ := List.mem_flatMap.mp h
                obtain ⟨use, huse, hreport⟩ := List.mem_flatMap.mp h
                obtain ⟨member, hmember, binding, hconverted⟩ :=
                  exists_left_of_forall₂ (Member.forall₂_of_usesAll hall) hentry
                obtain ⟨reference, href, hclass⟩ :=
                  exists_left_of_forall₂ hconverted.supported huse
                obtain ⟨node, hhead, hat⟩ := MemberUse.report_of_plan hclass hreport
                exact ⟨body, node, rfl,
                  .head (.member hkind hmembers hmember (by simp [hconverted.found]))
                    hconverted.declared href hhead, hat⟩
              · split at h
                · exact absurd h List.not_mem_nil
                · obtain ⟨list, hlist, hat⟩ := report_of_removeParameter h
                  exact ⟨body, list, rfl, .list hlist, hat⟩

/-- Whatever the plan for a callback reports, it reports at one of these nodes. -/
theorem report_of_plan (h : diagnostic ∈ (plan table source callback completion).diagnostics) :
    ∃ first rest body node, callback.parameters = first :: rest ∧
      callback.child? .body = some body ∧ Report table source callback first body node ∧
      diagnostic.IsAt source node := by
  unfold plan at h
  split at h
  · exact absurd h List.not_mem_nil
  · rename_i first rest hparameters
    simp only at h
    split at h
    · rename_i hkind
      obtain ⟨body, node, hbody, hreport, hat⟩ := report_of_namedPlan hkind h
      exact ⟨first, rest, body, node, hparameters, hbody, hreport, hat⟩
    · rename_i hkind
      obtain ⟨body, node, hbody, hreport, hat⟩ := report_of_destructuredPlan hkind h
      exact ⟨first, rest, body, node, hparameters, hbody, hreport, hat⟩
    · exact absurd h List.not_mem_nil

end Callback

end JestMigration
