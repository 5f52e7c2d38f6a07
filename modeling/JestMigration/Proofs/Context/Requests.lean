/-
# `Proofs.Context.Requests` — what is asked for because of one reference

Every change in the body of a callback goes back to one reference of the
context.  It is about the reference itself, about a member expression or a call
that begins with it, or about the statement that such a call makes up:

  * `Head reference node`: `node` begins with the reference;
  * `Request reference change`: a change that may be asked for because of it;
  * `changes_plan`, for named and for taken apart contexts: a use asks for one
    change at most, and which one;
  * `Request.in_body`: the change is about nodes of the callback's body.

`Classified` says of each use what the reference looks like there.
-/
import JestMigration.Context.Member
import JestMigration.Proofs.ChangeSet.Recording
import JestMigration.Proofs.Syntax.Nesting

namespace JestMigration

/-! ## Plans and their changes -/

namespace Plan

@[simp] theorem changes_nil : Plan.changes [] = [] := rfl

@[simp] theorem changes_append (first second : Plan) :
    Plan.changes (first ++ second) = first.changes ++ second.changes :=
  List.filterMap_append

@[simp] theorem changes_change (change : Change) :
    Plan.changes [.change change] = [change] := rfl

@[simp] theorem changes_replace (node : Node) (text : String) :
    (Plan.replace node text).changes = [.replace node.span text] := rfl

@[simp] theorem changes_warn (source : Source) (node : Node) (finding : Finding) :
    (Plan.warn source node finding).changes = [] := rfl

theorem changes_flatMap {α : Type} (items : List α) (plan : α → Plan) :
    Plan.changes (items.flatMap plan) = items.flatMap fun item => (plan item).changes :=
  List.filterMap_flatMap

end Plan

/-! ## What begins with a reference -/

open Node

/-- `Head reference node`: `node` is the reference, or a member expression or a call that begins
with it. -/
inductive Head (reference : Node) : Node → Prop
  | self : Head reference reference
  | step {node parent : Node} : Head reference node →
      node.memberOf? = some parent ∨ node.callOf? = some parent → Head reference parent

namespace Head

variable {tree : Tree} {reference node : Node}

/-- One step up leads from a child to a member expression or a call. -/
theorem parent {node parent : Node} (h : Within (root tree) node)
    (hup : node.memberOf? = some parent ∨ node.callOf? = some parent) :
    node ∈ parent.children ∧ Within (root tree) parent ∧
      (parent.kind = .memberExpression ∨ parent.kind = .callExpression) := by
  rcases hup with hup | hup
  · obtain ⟨hkind, _, hmem, hwithin⟩ := headOf?_eq_some h hup
    exact ⟨hmem, hwithin, .inl hkind⟩
  · obtain ⟨hkind, _, hmem, hwithin⟩ := headOf?_eq_some h hup
    exact ⟨hmem, hwithin, .inr hkind⟩

theorem within (h : Head reference node) (href : Within (root tree) reference) :
    Within (root tree) node ∧ Within node reference := by
  induction h with
  | self => exact ⟨href, .self⟩
  | step _ hup ih =>
      obtain ⟨hmem, hparent, _⟩ := Head.parent ih.1 hup
      exact ⟨hparent, (Within.of_mem_children hmem).trans ih.2⟩

/-- Between a reference and what begins with it there are only member expressions and calls. -/
theorem between (h : Head reference node) (href : Within (root tree) reference) {mid : Node}
    (hmid : Within node mid) (hbelow : Within mid reference) :
    mid = reference ∨ mid.kind = .memberExpression ∨ mid.kind = .callExpression := by
  have htop := (h.within href).1.trans hmid
  induction h with
  | self => exact .inl (hbelow.antisymm hmid)
  | @step node parent hnode hup ih =>
      obtain ⟨hin, hdown⟩ := hnode.within href
      obtain ⟨hmem, _, hkind⟩ := Head.parent hin hup
      rcases htop.total hin hbelow hdown with hover | hunder
      · rcases hover.of_child hmem with rfl | hover
        · exact ih .self
        · exact .inr (hmid.antisymm hover ▸ hkind)
      · exact ih hunder

theorem kind (h : Head reference node) (href : Within (root tree) reference) :
    node = reference ∨ node.kind = .memberExpression ∨ node.kind = .callExpression :=
  h.between href .self (h.within href).2

/-- What begins with a reference in the body of a function literal is in the body. -/
theorem within_body (h : Head reference node) {callback body : Node}
    (hcallback : Within (root tree) callback) (hliteral : callback.kind.isCallbackLiteral = true)
    (hbody : body ∈ callback.children) (href : Within body reference) : Within body node := by
  induction h with
  | self => exact href
  | step _ hup ih =>
      obtain ⟨hmem, _, hkind⟩ := Head.parent ((hcallback.child hbody).trans ih) hup
      rcases ih.of_child hmem with rfl | hin
      · -- The body is no callee and no object: its parent is the function.
        have hsame := parent?_of_mem_children hmem
        rw [parent?_of_mem_children hbody] at hsame
        cases hsame
        rcases hkind with hkind | hkind <;> simp [hkind, Kind.isCallbackLiteral] at hliteral
      · exact hin

end Head

/-! ## What may be asked for -/

/-- A change that may be asked for because of a reference: about what begins with it, or about the
statement that a call which begins with it makes up. -/
inductive Request (reference : Node) : Change → Prop
  | replace {node : Node} {text : String} : Head reference node →
      Request reference (.replace node.span text)
  | template {callee call : Node} {parts : List Part} : Head reference callee →
      callee.callOf? = some call →
      (∀ slot, .source slot ∈ parts → ∃ arguments argument, call.arguments? = some arguments ∧
        argument ∈ arguments ∧ slot = argument.span) →
      Request reference (.template call.span parts)
  | remove {call statement : Node} : Head reference call →
      Assertion.statement? call = some statement →
      Request reference (.deleteStatement statement.span)

/-- The statement that a call makes up is its parent, in a list of statements. -/
theorem Assertion.statement?_eq_some {call statement : Node} (h : statement? call = some statement) :
    call.parent? = some statement ∧ statement.kind = .expressionStatement ∧
      ∃ list, statement.parent? = some list ∧ isStatementList list.kind = true := by
  unfold statement? at h
  split at h
  · rename_i above habove
    split at h
    · rename_i hcond
      cases h
      exact ⟨habove, hcond.1, by simpa [Option.any_eq_true] using hcond.2⟩
    · exact absurd h (by simp)
  · exact absurd h (by simp)

/-- The parent of a node in the body of a function literal is the literal, or in the body. -/
theorem parent_within_body {tree : Tree} {callback body node parent : Node}
    (hcallback : Within (root tree) callback) (hbody : body ∈ callback.children)
    (hnode : Within body node) (hparent : node.parent? = some parent) :
    parent = callback ∨ Within body parent := by
  obtain ⟨hmem, _⟩ := mem_children_of_parent? ((hcallback.child hbody).trans hnode) hparent
  rcases hnode.of_child hmem with rfl | hin
  · rw [parent?_of_mem_children hbody] at hparent
    exact .inl (Option.some.inj hparent).symm
  · exact .inr hin

/-- What is asked for because of a reference in the body of a function literal is about a node of
the body that begins with the reference, or about a statement of the body. -/
theorem Request.in_body {tree : Tree} {callback body reference : Node} {change : Change}
    (source : Source) (hcallback : Within (root tree) callback)
    (hliteral : callback.kind.isCallbackLiteral = true) (hbody : body ∈ callback.children)
    (href : Within body reference) (h : Request reference change) :
    (∃ node, Head reference node ∧ Within body node ∧ change.span source = node.span) ∨
      ∃ call statement list, Head reference call ∧ call ∈ statement.children ∧
        Within body statement ∧ statement.kind = .expressionStatement ∧
        statement.parent? = some list ∧ Assertion.isStatementList list.kind = true ∧
        Within body list ∧ change = .deleteStatement statement.span := by
  cases h with
  | replace hnode =>
      exact .inl ⟨_, hnode, hnode.within_body hcallback hliteral hbody href, rfl⟩
  | template hcallee hcall _ =>
      have hnode := hcallee.step (.inr hcall)
      exact .inl ⟨_, hnode, hnode.within_body hcallback hliteral hbody href, rfl⟩
  | @remove call statement hnode hstatement =>
      obtain ⟨hparent, hkind, list, hlist, hislist⟩ := Assertion.statement?_eq_some hstatement
      have hcall := hnode.within_body hcallback hliteral hbody href
      -- The function literal is neither a statement nor a list of statements.
      rcases parent_within_body hcallback hbody hcall hparent with rfl | hin
      · simp [hkind, Kind.isCallbackLiteral] at hliteral
      rcases parent_within_body hcallback hbody hin hlist with rfl | hin'
      · rcases isStatementList_iff.mp hislist with h | h | h | h <;>
          simp [h, Kind.isCallbackLiteral] at hliteral
      have hmem := (mem_children_of_parent? ((hcallback.child hbody).trans hcall) hparent).1
      exact .inr ⟨call, statement, list, hnode, hmem, hin, hkind, hlist, hislist, hin', rfl⟩

namespace Assertion

theorem span_of_mem_slot {arguments : List Node} {index : Nat} {slot : Span}
    (h : Part.source slot = Assertion.slot arguments index) :
    ∃ argument ∈ arguments, slot = argument.span := by
  unfold Assertion.slot at h
  split at h
  · rename_i argument hargument
    cases h
    exact ⟨argument, List.mem_of_getElem? hargument, rfl⟩
  · exact absurd h (by simp)

theorem span_of_mem_thrown {arguments : List Node} {slot : Span}
    (h : Part.source slot ∈ thrown arguments) : ∃ argument ∈ arguments, slot = argument.span := by
  unfold thrown at h
  split at h
  · rename_i error herror
    have hslot : slot = error.span := by simpa using h
    exact ⟨error, List.mem_of_getElem? herror, hslot⟩
  · exact absurd h (by simp)

theorem span_of_mem_snapshotMessage {arguments : List Node} {slot : Span}
    (h : Part.source slot ∈ snapshotMessage arguments) :
    ∃ argument ∈ arguments, slot = argument.span := by
  unfold snapshotMessage at h
  split at h
  · rename_i message hmessage
    have hslot : slot = message.span := by simpa using h
    have hmem := List.mem_reverse.mp (List.mem_of_find?_eq_some hmessage)
    exact ⟨message, List.mem_of_mem_drop hmem, hslot⟩
  · exact absurd h (by simp)

/-- A call is written anew around some of its arguments, or taken out, or its callee is replaced by
the completion callback. -/
theorem change_cases (assertion : Assertion) (completion : String) :
    (∃ parts, assertion.change completion = .template assertion.call.span parts ∧
      ∀ slot, .source slot ∈ parts → ∃ argument ∈ assertion.arguments, slot = argument.span) ∨
    assertion.change completion = removal assertion.call ∨
    (assertion.rule.target = .completionFail ∧
      assertion.change completion = .replace assertion.callee.span (completion ++ ".fail")) ∨
    assertion.rule.target = .completionEnd ∧
      assertion.change completion = .replace assertion.callee.span completion := by
  have hnegation : ∀ slot, .source slot ∉ negation assertion.rule := by
    intro slot h
    unfold negation at h
    split at h <;> simp at h
  have hexpected : ∀ value slot, .source slot ∈ expected assertion.arguments value →
      ∃ argument ∈ assertion.arguments, slot = argument.span := by
    intro value slot h
    cases value with
    | nothing => exact absurd h (by simp [expected])
    | secondArgument => exact span_of_mem_slot (List.mem_singleton.mp h)
    | literal text => exact absurd h (by simp [expected])
  have hsubject : ∀ slot, .source slot ∈ subject assertion.arguments →
      ∃ argument ∈ assertion.arguments, slot = argument.span := by
    intro slot h
    simp only [subject, List.mem_cons, List.not_mem_nil, or_false, reduceCtorEq, false_or] at h
    exact span_of_mem_slot h
  simp only [change]
  cases htarget : assertion.rule.target with
  | matcher name value =>
      refine .inl ⟨_, rfl, ?_⟩
      intro slot h
      simp only [List.mem_append, List.mem_cons, List.not_mem_nil, or_false, reduceCtorEq] at h
      rcases h with (h | h) | h
      · exact hsubject slot h
      · exact absurd h (hnegation slot)
      · exact hexpected value slot h
  | throws =>
      refine .inl ⟨_, rfl, ?_⟩
      intro slot h
      rcases List.mem_append.mp h with h | h
      · rcases List.mem_append.mp h with h | h
        · exact hsubject slot h
        · exact absurd h (hnegation slot)
      · exact span_of_mem_thrown h
  | assertions =>
      refine .inl ⟨_, rfl, ?_⟩
      intro slot h
      simp only [List.mem_cons, List.not_mem_nil, or_false, reduceCtorEq, false_or] at h
      exact span_of_mem_slot h
  | snapshot =>
      refine .inl ⟨_, rfl, ?_⟩
      intro slot h
      simp only [List.mem_append, List.mem_cons, List.not_mem_nil, or_false, reduceCtorEq] at h
      rcases h with h | h
      · exact hsubject slot h
      · exact span_of_mem_snapshotMessage h
  | remove => exact .inr (.inl rfl)
  | completionFail => exact .inr (.inr (.inl ⟨rfl, rfl⟩))
  | completionEnd => exact .inr (.inr (.inr ⟨rfl, rfl⟩))

/-- A call that is written anew is written around some of its arguments. -/
theorem slots_of_template {assertion : Assertion} {completion : String} {span : Span}
    {parts : List Part} (h : assertion.change completion = .template span parts) :
    span = assertion.call.span ∧
      ∀ slot, .source slot ∈ parts → ∃ argument ∈ assertion.arguments, slot = argument.span := by
  rcases assertion.change_cases completion with ⟨found, hfound, hslots⟩ | heq | ⟨_, heq⟩ | ⟨_, heq⟩
  · rw [h] at hfound
    obtain ⟨rfl, rfl⟩ := Change.template.inj hfound
    exact ⟨rfl, hslots⟩
  · rw [h, removal] at heq
    split at heq
    · exact absurd heq (by simp)
    · exact absurd heq (by simp)
  · rw [h] at heq
    exact absurd heq (by simp)
  · rw [h] at heq
    exact absurd heq (by simp)

/-- An argument stands in the argument list. -/
theorem exists_list_of_mem_arguments {assertion : Assertion} {argument : Node}
    (h : argument ∈ assertion.arguments) :
    ∃ list, assertion.call.child? .arguments = some list ∧ argument ∈ list.children := by
  unfold arguments at h
  cases harguments : assertion.call.arguments? with
  | none => exact absurd h (by simp [harguments])
  | some found =>
      obtain ⟨list, hlist, _, rfl⟩ := arguments?_eq_some harguments
      rw [harguments, Option.getD_some] at h
      exact ⟨list, hlist, mem_children_of_mem_namedChildren h⟩

theorem request_removal {reference call : Node} (h : Head reference call) :
    Request reference (removal call) := by
  unfold removal
  split
  · rename_i statement hstatement
    exact .remove h hstatement
  · exact .replace h

/-- A call that begins with a reference asks for a change because of it. -/
theorem request_change {reference : Node} {assertion : Assertion} (completion : String)
    (hhead : Head reference assertion.callee)
    (hcall : assertion.callee.callOf? = some assertion.call) :
    Request reference (assertion.change completion) := by
  rcases assertion.change_cases completion with ⟨parts, heq, hslots⟩ | heq | ⟨_, heq⟩ | ⟨_, heq⟩
  · rw [heq]
    refine .template hhead hcall ?_
    intro slot h
    obtain ⟨argument, hmem, hspan⟩ := hslots slot h
    unfold arguments at hmem
    cases harguments : assertion.call.arguments? with
    | none => exact absurd hmem (by simp [harguments])
    | some list => exact ⟨list, argument, rfl, by simpa [harguments] using hmem, hspan⟩
  · rw [heq]
    exact request_removal (.step hhead (.inr hcall))
  · rw [heq]
    exact .replace hhead
  · rw [heq]
    exact .replace hhead

theorem changes_plan (source : Source) (assertion : Assertion) (completion : String) :
    (assertion.plan source completion).changes = [assertion.change completion] := by
  have harity : (assertion.arityPlan source).changes = [] := by
    simp only [arityPlan]
    split <;> rfl
  rw [plan, Plan.changes_append, harity, Plan.changes_change, List.nil_append]

end Assertion

namespace Context

theorem callOf?_of_callWithArguments? {node call : Node} (h : callWithArguments? node = some call) :
    node.callOf? = some call ∧ call.arguments?.isSome = true := by
  unfold callWithArguments? at h
  split at h
  · rename_i found hfound
    split at h
    · rename_i hargs
      cases h
      exact ⟨hfound, hargs⟩
    · exact absurd h (by simp)
  · exact absurd h (by simp)

/-- The change that gives a reference a new name. -/
def rename (source : Source) (reference : Node) (target : String) : Change :=
  .replace reference.span
    (if reference.kind = .shorthandProperty then reference.text source ++ ": " ++ target else target)

theorem changes_renameReference (source : Source) (reference : Node) (target : String) :
    (renameReference source reference target).changes = [rename source reference target] := by
  unfold renameReference rename
  split <;> rfl

/-! ## Named contexts -/

namespace Use

/-- The change that a use asks for, if it asks for one. -/
def change? (source : Source) (context : String) (completion : Bool) (reference : Node) :
    Use → Option Change
  | .assertion call member rule =>
    some (Assertion.change ⟨call, member, context, rule⟩ completionName)
  | .endValue member => some (.replace member.span completionName)
  | .failValue => some (.replace reference.span completionName)
  | .contextCall member => some (.replace member.span "context")
  | .unmapped .. | .contextAccess | .property | .whole =>
    if completion then some (rename source reference completionName) else none

theorem changes_follow (source : Source) (completion : Bool) (reference : Node) :
    (follow source completion reference).changes =
      (if completion then some (rename source reference completionName) else none).toList := by
  cases completion with
  | false => rfl
  | true => exact changes_renameReference source reference completionName

theorem changes_plan (source : Source) (context : String) (completion : Bool) (reference : Node)
    (use : Use) : (use.plan source context completion reference).changes =
      (use.change? source context completion reference).toList := by
  cases use with
  | assertion call member rule => exact Assertion.changes_plan source _ _
  | unmapped call method =>
      rw [plan, Plan.changes_append, Plan.changes_warn, changes_follow]
      rfl
  | endValue | failValue | contextCall => rfl
  | contextAccess | property | whole => exact changes_follow source completion reference

/-- What a reference looks like at each of its uses. -/
inductive Classified (source : Source) (reference : Node) : Use → Prop
  | assertion {member call : Node} {name : String} {rule : Rule} :
      reference.memberOf? = some member → member.propertyName? source = some name →
      callWithArguments? member = some call → Rule.find? name = some rule →
      Classified source reference (.assertion call member rule)
  | unmapped {member call : Node} {name : String} :
      reference.memberOf? = some member → member.propertyName? source = some name →
      callWithArguments? member = some call → Rule.find? name = none →
      Classified source reference (.unmapped call name)
  | endValue {member : Node} :
      reference.memberOf? = some member → member.propertyName? source = some "end" →
      callWithArguments? member = none → Classified source reference (.endValue member)
  | failValue {member : Node} :
      reference.memberOf? = some member → member.propertyName? source = some "fail" →
      callWithArguments? member = none → Classified source reference .failValue
  | contextCall {member call : Node} :
      reference.memberOf? = some member → member.propertyName? source = some "context" →
      callWithArguments? member = none → member.memberOf?.bind Node.callOf? = some call →
      Classified source reference (.contextCall member)
  | contextAccess {member : Node} :
      reference.memberOf? = some member → member.propertyName? source = some "context" →
      callWithArguments? member = none → member.memberOf?.bind Node.callOf? = none →
      Classified source reference .contextAccess
  | property {member : Node} :
      reference.memberOf? = some member → Classified source reference .property
  | whole : reference.memberOf? = none → Classified source reference .whole

theorem classified_ofValue {source : Source} {reference member : Node} {name : String}
    (hmember : reference.memberOf? = some member) (hname : member.propertyName? source = some name)
    (hcall : callWithArguments? member = none) : Classified source reference (ofValue member name) := by
  unfold ofValue
  split
  · rename_i hend
    exact .endValue hmember (hend ▸ hname) hcall
  · split
    · rename_i hfail
      exact .failValue hmember (hfail ▸ hname) hcall
    · split
      · rename_i hcontext
        split
        · rename_i call hup
          exact .contextCall hmember (hcontext ▸ hname) hcall hup
        · rename_i hup
          exact .contextAccess hmember (hcontext ▸ hname) hcall hup
      · exact .property hmember

theorem classified (source : Source) (reference : Node) :
    Classified source reference (classify source reference) := by
  unfold classify
  split
  · exact .whole ‹_›
  · rename_i member hmember
    split
    · exact .property hmember
    · rename_i name hname
      split
      · rename_i call hcall
        split
        · exact .assertion hmember hname hcall ‹_›
        · exact .unmapped hmember hname hcall ‹_›
      · exact classified_ofValue hmember hname ‹_›

/-- Whatever is done at a reference is asked for because of it. -/
theorem request_of_change? {source : Source} {context : String} {completion : Bool}
    {reference : Node} {change : Change}
    (h : (classify source reference).change? source context completion reference = some change) :
    Request reference change := by
  have hfollow : (if completion then some (rename source reference completionName) else none) =
      some change → Request reference change := by
    intro h
    split at h
    · cases h
      exact .replace .self
    · exact absurd h (by simp)
  have hclass := classified source reference
  generalize classify source reference = use at h hclass
  cases hclass with
  | assertion hmember _ hcall _ =>
      cases h
      exact Assertion.request_change _ (.step .self (.inl hmember))
        (callOf?_of_callWithArguments? hcall).1
  | endValue hmember =>
      cases h
      exact .replace (.step .self (.inl hmember))
  | failValue =>
      cases h
      exact .replace .self
  | contextCall hmember =>
      cases h
      exact .replace (.step .self (.inl hmember))
  | unmapped | contextAccess | property | whole => exact hfollow h

end Use

/-! ## Contexts taken apart -/

namespace MemberUse

/-- The change that a use of a member asks for. -/
def change (source : Source) : MemberUse → Change
  | .called assertion => assertion.change completionName
  | .handedOn reference target => rename source reference target

theorem changes_plan (source : Source) (use : MemberUse) :
    (use.plan source).changes = [use.change source] := by
  cases use with
  | called assertion => exact assertion.changes_plan source completionName
  | handedOn reference target => exact changes_renameReference source reference target

theorem request_of_classify? {source : Source} {rule : Rule} {reference : Node} {use : MemberUse}
    (h : classify? rule reference = some use) : Request reference (use.change source) := by
  unfold classify? at h
  split at h
  · rename_i call hcall
    cases h
    exact Assertion.request_change _ .self (callOf?_of_callWithArguments? hcall).1
  · split at h
    · cases h
      exact .replace .self
    · cases h
      exact .replace .self
    · exact absurd h (by simp)

end MemberUse

end Context

end JestMigration
