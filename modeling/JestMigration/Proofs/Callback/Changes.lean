/-
# `Proofs.Callback.Changes` — what the plan for a callback asks for

A callback's plan is empty, or it takes each reference of the context and then
the parameter (`changes_namedPlan`, `changes_destructuredPlan`).  `Origin` says
where a change can come from, and `origin_of_plan` that there is nothing else:
a reference in the body to a name that the parameter binds, or the parameter.
-/
import JestMigration.Callback
import JestMigration.Proofs.Context.Requests
import Mathlib.Data.List.Forall2

namespace JestMigration

/-! ## Lists that go side by side -/

section Lists

variable {α β : Type} {R : α → β → Prop} {xs : List α} {ys : List β}

theorem exists_right_of_forall₂ (h : List.Forall₂ R xs ys) {x : α} (hx : x ∈ xs) :
    ∃ y ∈ ys, R x y := by
  induction h with
  | nil => exact absurd hx List.not_mem_nil
  | cons hhead _ ih =>
      rcases List.mem_cons.mp hx with rfl | hx
      · exact ⟨_, List.mem_cons_self, hhead⟩
      · obtain ⟨y, hy, hrel⟩ := ih hx
        exact ⟨y, List.mem_cons_of_mem _ hy, hrel⟩

theorem exists_left_of_forall₂ (h : List.Forall₂ R xs ys) {y : β} (hy : y ∈ ys) :
    ∃ x ∈ xs, R x y :=
  exists_right_of_forall₂ h.flip hy

theorem forall₂_of_mapM {f : α → Option β} :
    ∀ {xs : List α} {ys : List β}, xs.mapM f = some ys →
      List.Forall₂ (fun x y => f x = some y) xs ys
  | [], ys, h => by
      cases h
      exact .nil
  | x :: rest, ys, h => by
      rw [List.mapM_cons] at h
      obtain ⟨y, hy, h⟩ := Option.bind_eq_some_iff.mp h
      obtain ⟨others, hothers, h⟩ := Option.bind_eq_some_iff.mp h
      cases h
      exact .cons hy (forall₂_of_mapM hothers)

theorem exists_of_mapM_eq_none {f : α → Option β} {xs : List α} :
    xs.mapM f = none → ∃ x ∈ xs, f x = none := by
  induction xs with
  | nil =>
      intro h
      exact absurd h (by simp)
  | cons x rest ih =>
      intro h
      rw [List.mapM_cons] at h
      cases hx : f x with
      | none => exact ⟨x, List.mem_cons_self, hx⟩
      | some y =>
          have hrest : rest.mapM f = none := by
            rw [Option.eq_none_iff_forall_ne_some]
            simpa [hx] using h
          obtain ⟨other, hother, hnone⟩ := ih hrest
          exact ⟨other, List.mem_cons_of_mem _ hother, hnone⟩

end Lists

namespace Context.Member

variable {table : ScopeTable} {source : Source} {body : Node}

/-! ## Members and their uses -/

/-- Uses of a member are what its references are classified as. -/
theorem forall₂_of_classifyAll {rule : Rule} : ∀ {references : List Node} {uses : List MemberUse},
    classifyAll source rule references = .ok uses →
      List.Forall₂ (fun reference use => MemberUse.classify? rule reference = some use)
        references uses
  | [], uses, h => by
      cases h
      exact .nil
  | reference :: rest, uses, h => by
      simp only [classifyAll] at h
      split at h
      · exact absurd h (by simp)
      · rename_i use huse
        split at h
        · rename_i others hothers
          cases h
          exact .cons huse (forall₂_of_classifyAll hothers)
        · exact absurd h (by simp)

/-- A use that is not supported is reported at its reference. -/
theorem exists_of_classifyAll_error {rule : Rule} {plan : Plan} {references : List Node} :
    classifyAll source rule references = .error plan →
      ∃ reference ∈ references, MemberUse.classify? rule reference = none ∧
        plan = Plan.warn source reference (.indirectUse contextName rule.method) := by
  induction references with
  | nil =>
      intro h
      exact absurd h (by simp [classifyAll])
  | cons reference rest ih =>
      intro h
      simp only [classifyAll] at h
      split at h
      · rename_i hnone
        cases h
        exact ⟨reference, List.mem_cons_self, hnone, rfl⟩
      · split at h
        · exact absurd h (by simp)
        · rename_i other hother
          cases h
          obtain ⟨found, hfound, hreport⟩ := ih hother
          exact ⟨found, List.mem_cons_of_mem _ hfound, hreport⟩

/-- What it takes for a member to be converted: a rule, a binding, and supported uses only. -/
structure Converted (table : ScopeTable) (source : Source) (body : Node) (member : Member)
    (entry : Rule × List MemberUse) (binding : BindingId) : Prop where
  found : Rule.find? member.method = some entry.1
  declared : table.declaredAt? member.binder = some binding
  supported : List.Forall₂
    (fun reference use => MemberUse.classify? entry.1 reference = some use)
    (table.references source body binding) entry.2

theorem uses_ok {member : Member} {entry : Rule × List MemberUse}
    (h : member.uses table source body = .ok entry) :
    ∃ binding, Converted table source body member entry binding := by
  unfold uses at h
  split at h
  · exact absurd h (by simp)
  · rename_i rule hrule
    split at h
    · exact absurd h (by simp)
    · rename_i binding hbinding
      split at h
      · rename_i found hfound
        cases h
        exact ⟨binding, hrule, hbinding, forall₂_of_classifyAll hfound⟩
      · exact absurd h (by simp)

/-- What is in the way of converting a member, and the plan instead: it has no rule, its name is not
declared, or one of its uses is not supported. -/
inductive Obstacle (table : ScopeTable) (source : Source) (body : Node) (member : Member) :
    Plan → Prop
  | method : Rule.find? member.method = none → Obstacle table source body member
      (Plan.warn source member.binder (.unsupportedMember contextName member.method))
  | undeclared : table.declaredAt? member.binder = none → Obstacle table source body member []
  | value {rule : Rule} {binding : BindingId} {reference : Node} :
      Rule.find? member.method = some rule → table.declaredAt? member.binder = some binding →
      reference ∈ table.references source body binding →
      MemberUse.classify? rule reference = none → Obstacle table source body member
        (Plan.warn source reference (.indirectUse contextName rule.method))

theorem obstacle_of_uses {member : Member} {plan : Plan}
    (h : member.uses table source body = .error plan) : Obstacle table source body member plan := by
  unfold uses at h
  split at h
  · cases h
    exact .method ‹_›
  · rename_i rule hrule
    split at h
    · cases h
      exact .undeclared ‹_›
    · rename_i binding hbinding
      split at h
      · exact absurd h (by simp)
      · rename_i other hother
        cases h
        obtain ⟨reference, href, hnone, rfl⟩ := exists_of_classifyAll_error hother
        exact .value hrule hbinding href hnone

/-- All members are converted together. -/
theorem forall₂_of_usesAll : ∀ {members : List Member} {all : List (Rule × List MemberUse)},
    usesAll table source body members = .ok all →
      List.Forall₂ (fun member entry => ∃ binding,
        Converted table source body member entry binding) members all
  | [], all, h => by
      cases h
      exact .nil
  | member :: rest, all, h => by
      simp only [usesAll] at h
      split at h
      · exact absurd h (by simp)
      · rename_i first hfirst
        split at h
        · rename_i others hothers
          cases h
          exact .cons (uses_ok hfirst) (forall₂_of_usesAll hothers)
        · exact absurd h (by simp)

/-- The plan instead is the one for some member that is not converted. -/
theorem exists_obstacle {plan : Plan} {members : List Member} :
    usesAll table source body members = .error plan →
      ∃ member ∈ members, Obstacle table source body member plan := by
  induction members with
  | nil =>
      intro h
      exact absurd h (by simp [usesAll])
  | cons member rest ih =>
      intro h
      simp only [usesAll] at h
      split at h
      · rename_i other hother
        cases h
        exact ⟨member, List.mem_cons_self, obstacle_of_uses hother⟩
      · split at h
        · exact absurd h (by simp)
        · rename_i other hother
          cases h
          obtain ⟨found, hfound, hobstacle⟩ := ih hother
          exact ⟨found, List.mem_cons_of_mem _ hfound, hobstacle⟩

theorem changes_of_usesAll_error {plan : Plan} {members : List Member}
    (h : usesAll table source body members = .error plan) : plan.changes = [] := by
  obtain ⟨member, _, hobstacle⟩ := exists_obstacle h
  cases hobstacle with
  | method => rfl
  | undeclared => rfl
  | value => rfl

end Context.Member

namespace Callback

open Context Node

/-! ## The names of a context -/

/-- The names that a context parameter binds: its own, or those of its members with a rule. -/
inductive Local (source : Source) (first : Node) : Node → Prop
  | named : (patternOf first).kind = .identifier → Local source first (patternOf first)
  | member {members : List Member} {member : Member} : (patternOf first).kind = .objectPattern →
      Member.ofPattern? source (patternOf first) = some members → member ∈ members →
      (Rule.find? member.method).isSome → Local source first member.binder

theorem within_patternOf (parameter : Node) : Within parameter (patternOf parameter) := by
  have hchild : Within parameter ((parameter.child? .pattern).getD parameter) := by
    cases hpattern : parameter.child? .pattern with
    | none => exact .self
    | some pattern => exact .of_mem_children (mem_children_of_child? hpattern)
  unfold patternOf
  split
  · exact hchild
  · exact hchild
  · exact .self

theorem patternOf_cases (parameter : Node) :
    patternOf parameter = parameter ∨ patternOf parameter ∈ parameter.children := by
  have hchild : (parameter.child? .pattern).getD parameter = parameter ∨
      (parameter.child? .pattern).getD parameter ∈ parameter.children := by
    cases hpattern : parameter.child? .pattern with
    | none => exact .inl rfl
    | some pattern => exact .inr (mem_children_of_child? hpattern)
  unfold patternOf
  split
  · exact hchild
  · exact hchild
  · exact .inl rfl

theorem patternOf_eq {node : Node} (h : node.kind ≠ .requiredParameter)
    (h' : node.kind ≠ .optionalParameter) : patternOf node = node := by
  unfold patternOf
  split
  · exact absurd ‹_› h
  · exact absurd ‹_› h'
  · rfl

/-- A member is read off an element of the pattern: the element itself, or the identifier in it. -/
theorem ofElement?_cases {source : Source} {element : Node} {member : Member}
    (h : Member.ofElement? source element = some member) :
    (member.binder = element ∧ element.kind = .shorthandPattern ∧
        member.method = element.text source) ∨
      (element.kind = .pairPattern ∧ element.child? .value = some member.binder ∧
        member.binder.kind = .identifier) := by
  unfold Member.ofElement? at h
  split at h
  · rename_i hkind
    cases h
    exact .inl ⟨rfl, hkind, rfl⟩
  · rename_i hkind
    split at h
    · rename_i key value _ hvalue
      split at h
      · rename_i hkinds
        cases h
        exact .inr ⟨hkind, hvalue, hkinds.2⟩
      · exact absurd h (by simp)
    · exact absurd h (by simp)
  · exact absurd h (by simp)

theorem exists_element {source : Source} {pattern : Node} {members : List Member}
    (h : Member.ofPattern? source pattern = some members) {member : Member}
    (hmember : member ∈ members) :
    ∃ element ∈ pattern.namedChildren, Member.ofElement? source element = some member := by
  exact exists_left_of_forall₂ (forall₂_of_mapM h) hmember

theorem patternNames_identifier {node : Node} (h : node.kind = .identifier) :
    node.patternNames = [node] := by
  rw [patternNames]
  simp only [h]

theorem patternNames_shorthandPattern {node : Node} (h : node.kind = .shorthandPattern) :
    node.patternNames = [node] := by
  rw [patternNames]
  simp only [h]

/-- The names of a typed parameter are those of its pattern. -/
theorem patternNames_typed {first pattern : Node}
    (hkind : first.kind = .requiredParameter ∨ first.kind = .optionalParameter)
    (hpattern : first.child? .pattern = some pattern) :
    first.patternNames = pattern.patternNames := by
  rw [patternNames]
  rcases hkind with hkind | hkind <;> simp only [hkind]
  all_goals
    split
    · rename_i inner hinner
      rw [hpattern] at hinner
      cases hinner
      rfl
    · rename_i hnone
      rw [hpattern] at hnone
      exact absurd hnone (by simp)

theorem patternNames_patternOf {first : Node}
    (h : (patternOf first).kind = .identifier ∨ (patternOf first).kind = .objectPattern) :
    first.patternNames = (patternOf first).patternNames := by
  by_cases hkind : first.kind = .requiredParameter ∨ first.kind = .optionalParameter
  · cases hpattern : first.child? .pattern with
    | none =>
        -- Without a pattern the parameter stands for itself, and that is neither of the two kinds.
        rcases hkind with hkind | hkind <;> simp [patternOf, hkind, hpattern] at h
    | some pattern =>
        have hof : patternOf first = pattern := by
          rcases hkind with hkind | hkind <;> simp [patternOf, hkind, hpattern]
        rw [hof, patternNames_typed hkind hpattern]
  · rw [patternOf_eq (fun h => hkind (.inl h)) (fun h => hkind (.inr h))]

/-- Every name of a pattern that is read as a list of members belongs to one of them. -/
theorem exists_member {source : Source} {pattern name : Node} {members : List Member}
    (hkind : pattern.kind = .objectPattern)
    (hmembers : Member.ofPattern? source pattern = some members)
    (hname : name ∈ pattern.patternNames) : ∃ member ∈ members, member.binder = name := by
  rw [patternNames] at hname
  simp only [hkind] at hname
  obtain ⟨⟨element, helement⟩, _, hname⟩ := List.mem_flatMap.mp hname
  obtain ⟨member, hmember, hread⟩ := exists_right_of_forall₂ (forall₂_of_mapM hmembers) helement
  refine ⟨member, hmember, ?_⟩
  rcases ofElement?_cases hread with ⟨hsame, hshorthand, _⟩ | ⟨hpair, hvalue, hidentifier⟩
  · rw [patternNames_shorthandPattern hshorthand] at hname
    rw [hsame, List.mem_singleton.mp hname]
  · rw [patternNames] at hname
    simp only [hpair] at hname
    split at hname
    · rename_i value hvalue'
      rw [hvalue] at hvalue'
      cases hvalue'
      rw [patternNames_identifier hidentifier] at hname
      exact (List.mem_singleton.mp hname).symm
    · exact absurd hname List.not_mem_nil

/-- The names of members are names of the pattern. -/
theorem mem_patternNames_of_member {source : Source} {pattern : Node} {members : List Member}
    (hkind : pattern.kind = .objectPattern)
    (hmembers : Member.ofPattern? source pattern = some members) {member : Member}
    (hmember : member ∈ members) : member.binder ∈ pattern.patternNames := by
  obtain ⟨element, helement, hread⟩ := exists_element hmembers hmember
  rw [patternNames]
  simp only [hkind]
  refine List.mem_flatMap.mpr ⟨⟨element, helement⟩, List.mem_attach _ _, ?_⟩
  rcases ofElement?_cases hread with ⟨hsame, hshorthand, _⟩ | ⟨hpair, hvalue, hidentifier⟩
  · rw [patternNames_shorthandPattern hshorthand, hsame]
    exact List.mem_singleton_self _
  · rw [patternNames]
    simp only [hpair]
    split
    · rename_i value hvalue'
      rw [hvalue] at hvalue'
      cases hvalue'
      rw [patternNames_identifier hidentifier]
      exact List.mem_singleton_self _
    · rename_i hnone
      rw [hvalue] at hnone
      exact absurd hnone (by simp)

/-- The names of a parameter are names of the function. -/
theorem mem_parameterNames {function parameter name : Node} (h : parameter ∈ function.parameters)
    (hname : name ∈ parameter.patternNames) : name ∈ function.parameterNames := by
  unfold parameters at h
  unfold parameterNames namesAt
  split at h
  · rw [List.mem_singleton.mp h] at hname
    exact List.mem_append_left _ hname
  · split at h
    · exact List.mem_append_right _ (List.mem_flatMap.mpr ⟨parameter, h, hname⟩)
    · exact absurd h List.not_mem_nil

theorem Local.within {source : Source} {first name : Node} (h : Local source first name) :
    Within first name := by
  cases h with
  | named _ => exact within_patternOf first
  | member _ hpattern hmember _ =>
      obtain ⟨element, helement, hread⟩ := exists_element hpattern hmember
      have hin : Within (patternOf first) element :=
        .of_mem_children (mem_children_of_mem_namedChildren helement)
      rcases ofElement?_cases hread with ⟨hsame, _⟩ | ⟨_, hvalue, _⟩
      · rw [hsame]
        exact (within_patternOf first).trans hin
      · exact ((within_patternOf first).trans hin).child (mem_children_of_child? hvalue)

/-! ## The changes of each plan -/

variable {table : ScopeTable} {source : Source} {callback first pattern body : Node}
  {completion : Bool} {change : Change}

/-- Is the callback converted to one that takes a completion callback? -/
def completes (completion : Bool) (uses : List (Node × Use)) : Bool :=
  completion || uses.any fun use => use.2.needsCompletion

theorem plan_eq_namedPlan {rest : List Node} (hparameters : callback.parameters = first :: rest)
    (hkind : (patternOf first).kind = .identifier) :
    plan table source callback completion =
      namedPlan table source callback first (patternOf first) completion := by
  simp only [plan, hparameters, hkind]

/-- The changes for a context that is a plain name. -/
theorem changes_namedPlan {binding : BindingId} (hdeclared : table.declaredAt? pattern = some binding)
    (hbody : callback.child? .body = some body) :
    (namedPlan table source callback first pattern completion).changes =
      ((table.references source body binding).flatMap fun reference =>
        ((Use.classify source reference).change? source (pattern.text source)
          (completes completion (namedUses table source body binding)) reference).toList) ++
      if completes completion (namedUses table source body binding) then
        [.replace first.span completionName]
      else if (namedUses table source body binding).any fun use => use.2.keepsParameter then []
      else (removeParameter source callback).changes := by
  simp only [namedPlan, hdeclared, hbody, Plan.changes_append, Plan.changes_flatMap,
    Use.changes_plan]
  congr 1
  · simp only [namedUses, List.flatMap_map]
    rfl
  · unfold completes
    split
    · rfl
    · split
      · rfl
      · rfl

/-- The changes for a context that is taken apart. -/
theorem changes_destructuredPlan {members : List Member} {all : List (Rule × List MemberUse)}
    (hbody : callback.child? .body = some body)
    (hmembers : Member.ofPattern? source pattern = some members)
    (hall : Member.usesAll table source body members = .ok all) :
    (destructuredPlan table source callback first pattern completion).changes =
      (all.flatMap fun entry => entry.2.map (MemberUse.change source)) ++
      if completion || all.any fun entry => entry.1.target.usesCompletion then
        [.replace first.span completionName]
      else (removeParameter source callback).changes := by
  simp only [destructuredPlan, hbody, hmembers, hall, Plan.changes_append, Plan.changes_flatMap,
    MemberUse.changes_plan]
  congr 1
  · simp only [List.map_eq_flatMap]
  · split
    · rfl
    · rfl

/-- Removing the parameter puts an empty list in the place of it or of the list it stands in. -/
theorem mem_changes_removeParameter (h : change ∈ (removeParameter source callback).changes) :
    ∃ node, (callback.child? .parameter = some node ∨ callback.child? .parameters = some node) ∧
      (∀ parameter ∈ callback.parameters, Within node parameter) ∧
      change = .replace node.span "()" := by
  unfold removeParameter at h
  split at h
  · rename_i node hnode
    refine ⟨node, .inl hnode, ?_, List.mem_singleton.mp h⟩
    intro parameter hparameter
    simp only [parameters, hnode, List.mem_singleton] at hparameter
    exact hparameter ▸ .self
  · rename_i hnone
    split at h
    · exact absurd h List.not_mem_nil
    · rename_i list hlist
      split at h
      · exact absurd h List.not_mem_nil
      · refine ⟨list, .inr hlist, ?_, List.mem_singleton.mp h⟩
        intro parameter hparameter
        simp only [parameters, hnone, hlist] at hparameter
        exact .of_mem_children (mem_children_of_mem_namedChildren hparameter)
      · exact absurd h List.not_mem_nil

/-! ## Where a change comes from -/

/-- Where a change in the plan for a callback comes from. -/
inductive Origin (table : ScopeTable) (source : Source) (callback first body : Node) :
    Change → Prop
  | reference {name reference : Node} {binding : BindingId} {change : Change} :
      Local source first name → table.declaredAt? name = some binding →
      reference ∈ table.references source body binding → Request reference change →
      Origin table source callback first body change
  | rename : Origin table source callback first body (.replace first.span completionName)
  | remove {node : Node} :
      callback.child? .parameter = some node ∨ callback.child? .parameters = some node →
      Within node first → Origin table source callback first body (.replace node.span "()")

theorem origin_of_removeParameter (hfirst : first ∈ callback.parameters)
    (h : change ∈ (removeParameter source callback).changes) :
    Origin table source callback first body change := by
  obtain ⟨node, hnode, haround, rfl⟩ := mem_changes_removeParameter h
  exact .remove hnode (haround first hfirst)

theorem origin_of_namedPlan (hfirst : first ∈ callback.parameters)
    (hkind : (patternOf first).kind = .identifier)
    (h : change ∈ (namedPlan table source callback first (patternOf first) completion).changes) :
    ∃ body, callback.child? .body = some body ∧ Origin table source callback first body change := by
  cases hdeclared : table.declaredAt? (patternOf first) with
  | none => exact absurd h (by simp [namedPlan, hdeclared])
  | some binding =>
      cases hbody : callback.child? .body with
      | none => exact absurd h (by simp [namedPlan, hdeclared, hbody])
      | some body =>
          refine ⟨body, rfl, ?_⟩
          rw [changes_namedPlan hdeclared hbody] at h
          rcases List.mem_append.mp h with h | h
          · obtain ⟨reference, href, hchange⟩ := List.mem_flatMap.mp h
            exact .reference (.named hkind) hdeclared href
              (Use.request_of_change? (Option.mem_toList.mp hchange))
          · split at h
            · rw [List.mem_singleton.mp h]
              exact .rename
            · split at h
              · exact absurd h List.not_mem_nil
              · exact origin_of_removeParameter hfirst h

/-- A context that is taken apart is converted as a whole or not at all. -/
theorem exists_of_mem_destructuredPlan
    (h : change ∈ (destructuredPlan table source callback first pattern completion).changes) :
    ∃ body members all, callback.child? .body = some body ∧
      Member.ofPattern? source pattern = some members ∧
      Member.usesAll table source body members = .ok all := by
  cases hbody : callback.child? .body with
  | none => exact absurd h (by simp [destructuredPlan, hbody])
  | some body =>
      cases hmembers : Member.ofPattern? source pattern with
      | none => exact absurd h (by simp [destructuredPlan, hbody, hmembers])
      | some members =>
          cases hall : Member.usesAll table source body members with
          | error plan =>
              simp only [destructuredPlan, hbody, hmembers, hall] at h
              rw [Member.changes_of_usesAll_error hall] at h
              exact absurd h List.not_mem_nil
          | ok all => exact ⟨body, members, all, rfl, rfl, hall⟩

/-- What is asked for at the references of members. -/
theorem exists_of_mem_memberChanges {members : List Member} {all : List (Rule × List MemberUse)}
    (hall : Member.usesAll table source body members = .ok all)
    (h : change ∈ all.flatMap fun entry => entry.2.map (MemberUse.change source)) :
    ∃ member ∈ members, ∃ rule binding reference, Rule.find? member.method = some rule ∧
      table.declaredAt? member.binder = some binding ∧
      reference ∈ table.references source body binding ∧ Request reference change := by
  obtain ⟨entry, hentry, hchange⟩ := List.mem_flatMap.mp h
  obtain ⟨use, huse, rfl⟩ := List.mem_map.mp hchange
  obtain ⟨member, hmember, binding, hconverted⟩ :=
    exists_left_of_forall₂ (Member.forall₂_of_usesAll hall) hentry
  obtain ⟨reference, href, hclass⟩ := exists_left_of_forall₂ hconverted.supported huse
  exact ⟨member, hmember, entry.1, binding, reference, hconverted.found, hconverted.declared, href,
    MemberUse.request_of_classify? hclass⟩

theorem origin_of_destructuredPlan (hfirst : first ∈ callback.parameters)
    (hkind : (patternOf first).kind = .objectPattern)
    (h : change ∈
      (destructuredPlan table source callback first (patternOf first) completion).changes) :
    ∃ body, callback.child? .body = some body ∧ Origin table source callback first body change := by
  obtain ⟨body, members, all, hbody, hmembers, hall⟩ := exists_of_mem_destructuredPlan h
  refine ⟨body, hbody, ?_⟩
  rw [changes_destructuredPlan hbody hmembers hall] at h
  rcases List.mem_append.mp h with h | h
  · obtain ⟨member, hmember, rule, binding, reference, hfound, hdeclared, href, hrequest⟩ :=
      exists_of_mem_memberChanges hall h
    exact .reference (.member hkind hmembers hmember (by simp [hfound])) hdeclared href hrequest
  · split at h
    · rw [List.mem_singleton.mp h]
      exact .rename
    · exact origin_of_removeParameter hfirst h

/-- Every change in the plan for a callback comes from a reference in the body or from the
parameter. -/
theorem origin_of_plan (h : change ∈ (plan table source callback completion).changes) :
    ∃ first rest body, callback.parameters = first :: rest ∧
      ((patternOf first).kind = .identifier ∨ (patternOf first).kind = .objectPattern) ∧
      callback.child? .body = some body ∧ Origin table source callback first body change := by
  unfold plan at h
  split at h
  · exact absurd h List.not_mem_nil
  · rename_i first rest hparameters
    have hfirst : first ∈ callback.parameters := by simp [hparameters]
    simp only at h
    split at h
    · rename_i hkind
      obtain ⟨body, hbody, horigin⟩ := origin_of_namedPlan hfirst hkind h
      exact ⟨first, rest, body, hparameters, .inl hkind, hbody, horigin⟩
    · rename_i hkind
      obtain ⟨body, hbody, horigin⟩ := origin_of_destructuredPlan hfirst hkind h
      exact ⟨first, rest, body, hparameters, .inr hkind, hbody, horigin⟩
    · exact absurd h List.not_mem_nil

end Callback

end JestMigration
