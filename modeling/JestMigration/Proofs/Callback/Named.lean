/-
# `Proofs.Callback.Named` — callbacks with a named context

What the plan for a callback with a named context reports about members and what
it edits, reference by reference.

Every call without a rule has a report of its own.  The same message at the same
place is reported once, but a call begins with its reference, and two references
never begin together (`nodup_reports`).  An edit inside the callee is one that a
reference in there asks for (`exists_reference`), and there is only one: it asks
for the new name of the context in completion style, and else for nothing.
-/
import JestMigration.Proofs.Callback.Rejections
import JestMigration.Proofs.Callback.Shadowing
import JestMigration.Proofs.Diagnostic.SourceOrder
import JestMigration.Proofs.Migration.Marks
import JestMigration.Proofs.Scope.References

namespace JestMigration

open Node

/-- What a function gives for some members of a list, beside these members. -/
theorem forall₂_filterMap {α β : Type} (f : α → Option β) (xs : List α) :
    List.Forall₂ (fun x y => x ∈ xs ∧ f x = some y) (xs.filter fun x => (f x).isSome)
      (xs.filterMap f) := by
  induction xs with
  | nil => exact .nil
  | cons x rest ih =>
      have hrest := ih.imp fun _ _ => And.imp_left (List.mem_cons_of_mem x)
      cases hx : f x with
      | none => simpa [hx] using hrest
      | some y => simpa [hx] using hrest

/-- A name with a text and nothing below it is a leaf. -/
theorem Mention.isLeaf {source : Source} {tree : Tree} {node : Node}
    (h : Mention source tree node) (hleaf : tree.LeafNames) : IsLeaf tree node :=
  ⟨h.within, hleaf node (mem_nodes_of_within h.within) h.isName, h.start_lt_stop⟩

namespace Callback

open Context

/-- The context becomes the completion callback: the callback is registered as one that takes it, or
its `end` or `fail` is used. -/
def Completing (source : Source) (tree : Tree) (body : Node) (binding : BindingId)
    (completion : Bool) : Prop :=
  completion = true ∨
    ∃ reference ∈ (ScopeTable.build source tree).references source body binding,
      CompletesAt source reference

variable {source : Source} {tree : Tree} {callback first body inner reference member call : Node}
  {rest : List Node} {binding : BindingId} {completion : Bool} {name : String} {change : Change}
  {edit : Edit} {changes : ChangeSet}

theorem completing_iff : Completing source tree body binding completion ↔
    completes completion (namedUses (ScopeTable.build source tree) source body binding) = true := by
  cases completion with
  | true => simp [Completing, completes]
  | false => simp [Completing, completes_iff]

/-- Further parameters are all that is reported about the parameter. -/
theorem filter_diagnostics_removeParameter :
    (removeParameter source callback).diagnostics.filter
      (fun diagnostic => Finding.rejectsMember diagnostic.message) = [] := by
  unfold removeParameter
  split
  · rfl
  · split
    · rfl
    · split
      · rfl
      · rfl
      · simp [Diagnostic.ofNode, Finding.rejectsMember_extraParameters]

/-- The reports on members in the plan for a named context, one for each use without a rule. -/
theorem filter_diagnostics_namedPlan {table : ScopeTable} {pattern : Node}
    (hdeclared : table.declaredAt? pattern = some binding)
    (hbody : callback.child? .body = some body) :
    (namedPlan table source callback first pattern completion).diagnostics.filter
      (fun diagnostic => Finding.rejectsMember diagnostic.message) =
    (table.references source body binding).filterMap fun reference =>
      (Use.classify source reference).report? source (pattern.text source) := by
  have htail : ∀ ends keep : Bool, (Plan.diagnostics (if ends then Plan.replace first completionName
      else if keep then [] else removeParameter source callback)).filter
        (fun diagnostic => Finding.rejectsMember diagnostic.message) = [] := by
    intro ends keep
    cases ends with
    | true => rfl
    | false =>
        cases keep with
        | true => rfl
        | false => exact filter_diagnostics_removeParameter
  simp only [namedPlan, hdeclared, hbody, Plan.diagnostics_append, Plan.diagnostics_flatMap,
    List.filter_append, List.filter_flatMap, Use.filter_diagnostics_plan]
  rw [htail, List.append_nil, List.filterMap_eq_flatMap_toList, namedUses, List.flatMap_map]

/-- A function literal with a named context, in a tree that keeps the parser's promises about names
and members. -/
structure Named (source : Source) (tree : Tree) (callback first body : Node) (rest : List Node)
    (binding : BindingId) : Prop where
  nest : tree.WellNested source
  leaf : tree.LeafNames
  plain : tree.PlainMembers
  within : Within (root tree) callback
  literal : callback.kind.isCallbackLiteral = true
  parameters : callback.parameters = first :: rest
  kind : (patternOf first).kind = .identifier
  declared : (ScopeTable.build source tree).declaredAt? (patternOf first) = some binding
  child : callback.child? .body = some body

namespace Named

theorem plan_eq (h : Named source tree callback first body rest binding) :
    plan (ScopeTable.build source tree) source callback completion =
      namedPlan (ScopeTable.build source tree) source callback first (patternOf first)
        completion :=
  plan_eq_namedPlan h.parameters h.kind

theorem mem_parameters (h : Named source tree callback first body rest binding) :
    first ∈ callback.parameters := by
  simp [h.parameters]

theorem within_pattern (h : Named source tree callback first body rest binding) :
    Within (root tree) (patternOf first) :=
  (h.within.trans (below_of_mem_parameters h.mem_parameters).1).trans (within_patternOf first)

theorem mention (h : Named source tree callback first body rest binding)
    (href : reference ∈ (ScopeTable.build source tree).references source body binding) :
    Mention source tree reference ∧ Within body reference :=
  Mention.of_mem_references (h.within.trans (within_of_child? h.child)) h.within_pattern h.declared
    href

theorem pairwise_id (h : Named source tree callback first body rest binding) :
    ((ScopeTable.build source tree).references source body binding).Pairwise
      fun a b => a.id < b.id := by
  rw [ScopeTable.references_eq_found h.nest.nested (h.within.trans (within_of_child? h.child))]
  exact ScopeTable.pairwise_id_found _ _ _ _

theorem nodup_references (h : Named source tree callback first body rest binding) :
    ((ScopeTable.build source tree).references source body binding).Nodup :=
  h.pairwise_id.imp fun hlt heq => absurd (heq ▸ hlt) (Nat.lt_irrefl _)

/-! ### Reports -/

/-- A call without a rule begins with its reference. -/
theorem start_of_unmapped (h : Named source tree callback first body rest binding)
    (hunmapped : Unmapped source tree reference member call name) :
    call.span.start = reference.span.start :=
  (h.plain.calls call (mem_nodes_of_within hunmapped.called.within) hunmapped.called.kind member
    hunmapped.called.callee hunmapped.access.kind reference hunmapped.access.object).symm

/-- No two calls have one report. -/
theorem nodup_reports (h : Named source tree callback first body rest binding) (context : String) :
    (((ScopeTable.build source tree).references source body binding).filterMap fun reference =>
      (Use.classify source reference).report? source context).Nodup := by
  have hstart : ∀ {reference : Node} {diagnostic : Diagnostic}, Within (root tree) reference →
      (Use.classify source reference).report? source context = some diagnostic →
      diagnostic.origin? = some reference.span.start := by
    intro reference diagnostic hin hreport
    obtain ⟨call, name, hclassify, rfl⟩ := Use.exists_of_report? hreport
    obtain ⟨member, hunmapped⟩ := (unmapped_iff hin).mpr hclassify
    rw [← h.start_of_unmapped hunmapped]
    rfl
  rw [List.Nodup, List.pairwise_filterMap]
  refine h.pairwise_id.imp_of_mem ?_
  rintro a b ha hb hlt diagnostic hdiagnostic _ hother rfl
  obtain ⟨hmention, _⟩ := h.mention ha
  obtain ⟨hmention', _⟩ := h.mention hb
  have hsame := (hstart hmention.within hdiagnostic).symm.trans (hstart hmention'.within hother)
  have heq := (hmention.isLeaf h.leaf).eq_of_start h.nest (hmention'.isLeaf h.leaf)
    (Option.some.inj hsame)
  rw [heq] at hlt
  exact absurd hlt (Nat.lt_irrefl _)

/-- Calls without a rule are reported in order, and each is reported once. -/
theorem reports_eq (h : Named source tree callback first body rest binding) :
    (Diagnostic.collect (plan (ScopeTable.build source tree) source callback
      completion).diagnostics).filter
        (fun diagnostic => Finding.rejectsMember diagnostic.message) =
      ((ScopeTable.build source tree).references source body binding).filterMap fun reference =>
        (Use.classify source reference).report? source ((patternOf first).text source) := by
  rw [Diagnostic.filter_collect, h.plan_eq, filter_diagnostics_namedPlan h.declared h.child]
  exact Diagnostic.collect_of_nodup (h.nodup_reports _)

/-- The references with a call without a rule, and the report on each. -/
theorem exists_unmapped (h : Named source tree callback first body rest binding) :
    ∃ unmapped, unmapped.Sublist ((ScopeTable.build source tree).references source body binding) ∧
      unmapped.Nodup ∧
      (∀ reference ∈ (ScopeTable.build source tree).references source body binding,
        (reference ∈ unmapped ↔
          ∃ member call name, Unmapped source tree reference member call name)) ∧
      List.Forall₂
        (fun reference diagnostic => ∃ member call name,
          Unmapped source tree reference member call name ∧
          diagnostic = .ofNode source call ("\"" ++ (patternOf first).text source ++ "." ++ name ++
            "\" is currently not supported"))
        unmapped
        ((Diagnostic.collect (plan (ScopeTable.build source tree) source callback
          completion).diagnostics).filter
            fun diagnostic => Finding.rejectsMember diagnostic.message) := by
  refine ⟨((ScopeTable.build source tree).references source body binding).filter fun reference =>
    ((Use.classify source reference).report? source ((patternOf first).text source)).isSome,
    List.filter_sublist, ?_, ?_, ?_⟩
  · exact h.nodup_references.filter _
  · intro reference href
    rw [List.mem_filter, Use.isSome_report?_iff (h.mention href).1.within]
    exact and_iff_right href
  · rw [h.reports_eq]
    refine (forall₂_filterMap _ _).imp ?_
    rintro reference diagnostic ⟨href, hreport⟩
    obtain ⟨call, name, hclassify, rfl⟩ := Use.exists_of_report? hreport
    obtain ⟨member, hunmapped⟩ := (unmapped_iff (h.mention href).1.within).mpr hclassify
    exact ⟨member, call, name, hunmapped, rfl⟩

/-! ### Edits -/

/-- A change inside a node of the body is asked for at a reference in the node. -/
theorem exists_reference (h : Named source tree callback first body rest binding)
    (hinner : Within body inner)
    (hchange : change ∈ (plan (ScopeTable.build source tree) source callback completion).changes)
    (hin : inner.span.contains (change.span source) = true) :
    ∃ reference ∈ (ScopeTable.build source tree).references source body binding,
      Within inner reference ∧
      (Use.classify source reference).change? source ((patternOf first).text source)
        (completes completion (namedUses (ScopeTable.build source tree) source body binding))
        reference = some change := by
  have hbody := h.within.trans (within_of_child? h.child)
  -- What is done about the parameter is not in the body.
  have hout : ∀ {child node : Node},
      callback.child? .parameter = some child ∨ callback.child? .parameters = some child →
      Within child node → Within node first → change.span source ≠ node.span := by
    intro child node hchild hnode haround hspan
    rw [hspan, not_contains_parameter h.nest h.within hchild hnode h.child hinner
      (start_lt_stop_of_declaredAt? h.nest
        ((h.within.child (mem_children_of_parameter hchild)).trans hnode)
        (haround.trans (within_patternOf first)) h.declared)] at hin
    exact absurd hin (by simp)
  rw [h.plan_eq, changes_namedPlan h.declared h.child] at hchange
  rcases List.mem_append.mp hchange with hchange | hchange
  · obtain ⟨reference, href, huse⟩ := List.mem_flatMap.mp hchange
    have huse := Option.mem_toList.mp huse
    obtain ⟨hmention, hbelow⟩ := h.mention href
    refine ⟨reference, href, ?_, huse⟩
    by_contra hnot
    have hcontains := (Use.request_of_change? huse).contains_reference h.nest h.within h.literal
      (mem_children_of_child? h.child) hbelow
    rw [not_contains_mention h.nest h.leaf hmention (hbody.trans hinner) hnot hcontains] at hin
    exact absurd hin (by simp)
  · split at hchange
    · obtain ⟨child, hchild, hbelow⟩ := exists_of_mem_parameters h.mem_parameters
      rw [List.mem_singleton.mp hchange] at hout
      exact absurd rfl (hout hchild hbelow .self)
    · split at hchange
      · exact absurd hchange List.not_mem_nil
      · obtain ⟨node, hnode, haround, heq⟩ := mem_changes_removeParameter hchange
        rw [heq] at hout
        exact absurd rfl (hout hnode .self (haround first h.mem_parameters))

/-- Where a reference asks for an edit, one is recorded. -/
theorem exists_recorded (h : Named source tree callback first body rest binding)
    (hrun : ChangeSet.applyAll { source }
      (plan (ScopeTable.build source tree) source callback completion).changes = .ok changes)
    (href : reference ∈ (ScopeTable.build source tree).references source body binding)
    (huse : (Use.classify source reference).change? source ((patternOf first).text source)
      (completes completion (namedUses (ScopeTable.build source tree) source body binding))
      reference = some change)
    (hedit : change.edit? source = some edit) :
    ∃ recorded ∈ changes.edits, recorded.span = edit.span := by
  refine (ChangeSet.recorded_applyAll hrun).covered change ?_ edit hedit
  rw [h.plan_eq, changes_namedPlan h.declared h.child]
  exact List.mem_append_left _
    (List.mem_flatMap.mpr ⟨reference, href, Option.mem_toList.mpr huse⟩)

/-- What a call without a rule asks for: in completion style, the new name of the context. -/
theorem change?_of_unmapped (h : Named source tree callback first body rest binding)
    (hunmapped : Unmapped source tree reference member call name)
    (hin : Within (root tree) reference) (context : String) (completes : Bool) :
    (Use.classify source reference).change? source context completes reference =
      if completes then some (.replace reference.span completionName) else none := by
  have hkind := h.plain.objects member (mem_nodes_of_within hunmapped.access.within)
    hunmapped.access.kind reference hunmapped.access.object
  rw [(unmapped_iff hin).mp ⟨member, hunmapped⟩]
  simp only [Use.change?, rename, if_neg hkind]

/-- The callee of a call without a rule is in the body, and begins with its reference. -/
theorem within_callee (h : Named source tree callback first body rest binding)
    (href : reference ∈ (ScopeTable.build source tree).references source body binding)
    (hunmapped : Unmapped source tree reference member call name) :
    Within body member ∧ Within member reference := by
  obtain ⟨hmention, hbelow⟩ := h.mention href
  have hmember := ((accesses_iff hmention.within).mp hunmapped.access).1
  have hhead : Head reference member := .step .self (.inl hmember)
  exact ⟨hhead.within_body h.within h.literal (mem_children_of_child? h.child) hbelow,
    (hhead.within hmention.within).2⟩

/-- An edit inside the callee of a call without a rule is asked for at the reference of the call,
since there is no other in the callee. -/
theorem eq_of_edit_in_callee (h : Named source tree callback first body rest binding)
    (hrun : ChangeSet.applyAll { source }
      (plan (ScopeTable.build source tree) source callback completion).changes = .ok changes)
    (href : reference ∈ (ScopeTable.build source tree).references source body binding)
    (hunmapped : Unmapped source tree reference member call name) (hedit : edit ∈ changes.edits)
    (hcontains : member.span.contains edit.span = true) :
    completes completion (namedUses (ScopeTable.build source tree) source body binding) = true ∧
      reference.text source ≠ completionName ∧ edit = .replace reference.span completionName := by
  obtain ⟨hmention, _⟩ := h.mention href
  obtain ⟨change, hchange, hask⟩ := ChangeSet.origin_applyAll hrun hedit
  rw [Change.span_of_edit? hask] at hcontains
  obtain ⟨other, hother, hin, huse⟩ :=
    h.exists_reference (h.within_callee href hunmapped).1 hchange hcontains
  have hsame := hmention.eq_of_within h.leaf (h.plain.within_object hunmapped.access.within
    hunmapped.access.kind hunmapped.access.object hin (h.mention hother).1.isName)
  rw [hsame, h.change?_of_unmapped hunmapped hmention.within] at huse
  split at huse
  · rename_i hcompletes
    cases huse
    refine ⟨hcompletes, ?_, Change.eq_of_edit?_replace hask⟩
    intro htext
    simp [Change.edit?, hmention.slice?_eq, htext] at hask
  · exact absurd huse (by simp)

/-- The edits inside the callee of a call without a rule. -/
theorem edit_in_callee_iff (h : Named source tree callback first body rest binding)
    (hrun : ChangeSet.applyAll { source }
      (plan (ScopeTable.build source tree) source callback completion).changes = .ok changes)
    (href : reference ∈ (ScopeTable.build source tree).references source body binding)
    (hunmapped : Unmapped source tree reference member call name) :
    edit ∈ changes.edits ∧ member.span.contains edit.span = true ↔
      Completing source tree body binding completion ∧ reference.text source ≠ completionName ∧
        edit = .replace reference.span completionName := by
  rw [completing_iff]
  constructor
  · rintro ⟨hedit, hcontains⟩
    exact h.eq_of_edit_in_callee hrun href hunmapped hedit hcontains
  · rintro ⟨hcompletes, htext, rfl⟩
    obtain ⟨hmention, _⟩ := h.mention href
    have huse := h.change?_of_unmapped hunmapped hmention.within ((patternOf first).text source)
      (completes completion (namedUses (ScopeTable.build source tree) source body binding))
    rw [if_pos hcompletes] at huse
    have hask : (Change.replace reference.span completionName).edit? source =
        some (.replace reference.span completionName) := by
      simp [Change.edit?, hmention.slice?_eq, htext]
    obtain ⟨recorded, hrecorded, hspan⟩ := h.exists_recorded hrun href huse hask
    have hcontains : member.span.contains reference.span = true :=
      h.nest.contains hunmapped.access.within (h.within_callee href hunmapped).2
    obtain ⟨_, _, heq⟩ :=
      h.eq_of_edit_in_callee hrun href hunmapped hrecorded (hspan ▸ hcontains)
    exact ⟨heq ▸ hrecorded, hcontains⟩

/-- What is asked for because of a reference goes back to it. -/
theorem marked (h : Named source tree callback first body rest binding)
    (htrim : tree.Trimmed source)
    (href : reference ∈ (ScopeTable.build source tree).references source body binding)
    (hrequest : Request reference change) : Marked source tree reference change := by
  obtain ⟨hmention, hin⟩ := h.mention href
  obtain ⟨_, _, _, hkind, _⟩ := ScopeTable.mem_references_iff.mp href
  obtain ⟨node, hsite, _, habout⟩ := hrequest.site h.nest htrim h.within h.literal
    (mem_children_of_child? h.child) hin hkind
    ((Local.named h.kind).isTrimmed_reference htrim h.within_pattern h.declared href)
  exact habout.marked hmention.within hmention.isName hsite

/-- The edit that a reference asks for is the one that is recorded for its span. -/
theorem mem_edits_of_change? (h : Named source tree callback first body rest binding)
    (htrim : tree.Trimmed source) (hlead : tree.Leading source)
    (hrun : ChangeSet.applyAll { source }
      (plan (ScopeTable.build source tree) source callback completion).changes = .ok changes)
    (href : reference ∈ (ScopeTable.build source tree).references source body binding)
    (huse : (Use.classify source reference).change? source ((patternOf first).text source)
      (completes completion (namedUses (ScopeTable.build source tree) source body binding))
      reference = some change)
    (hedit : change.edit? source = some edit) : edit ∈ changes.edits := by
  obtain ⟨hmention, hin⟩ := h.mention href
  have hrequest := Use.request_of_change? huse
  obtain ⟨recorded, hrecorded, hspan⟩ := h.exists_recorded hrun href huse hedit
  obtain ⟨asked, hasked, hask⟩ := ChangeSet.origin_applyAll hrun hrecorded
  have hspans : change.span source = asked.span source := by
    rw [← Change.span_of_edit? hedit, ← Change.span_of_edit? hask, hspan]
  -- What was asked for first at this span was asked for in the body, at the same reference.
  have hinside := (hrequest.inside h.nest h.within h.literal (mem_children_of_child? h.child)
    hin).contained
  obtain ⟨other, hother, _, huse'⟩ := h.exists_reference .self hasked (hspans ▸ hinside)
  have hsame : change = asked := by
    rcases (h.marked htrim href hrequest).unique h.nest hlead (hmention.isLeaf h.leaf)
      ((h.mention hother).1.isLeaf h.leaf)
      (h.marked htrim hother (Use.request_of_change? huse')) hspans with rfl | heq
    · exact Option.some.inj (huse.symm.trans huse')
    · exact heq
  rw [hsame, hask] at hedit
  exact Option.some.inj hedit ▸ hrecorded

end Named

end Callback

end JestMigration
