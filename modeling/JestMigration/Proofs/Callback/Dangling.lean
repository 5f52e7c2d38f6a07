/-
# `Proofs.Callback.Dangling` — no reference is left without its parameter

When the plan for a callback renames or removes the context parameter, every
reference to a name that the parameter binds has to go.  Most references ask
for an edit and are covered by it (`Proofs.Callback.Coverage`).  What is left
are changes that find their text in place already, and references for which
nothing is asked:

  * a text of name bytes is never in the place of a node that holds a reference
    and something else (`exists_edit?_of_word`), so only a reference that is
    spelled like the completion callback can be left as it is
    (`edit?_or_spelled`, for named and for taken apart contexts);
  * nothing is asked for at a use that keeps the parameter, and at an access to
    `t.context` when the parameter goes (`change?_eq_none`).
-/
import JestMigration.Proofs.Callback.Coverage

namespace JestMigration

open Node

/-! ## Changes that find their text in place -/

theorem Change.exists_edit?_or (source : Source) (span : Span) (text : String) :
    (∃ edit, (Change.replace span text).edit? source = some edit) ∨
      source.slice? span = some text := by
  simp only [Change.edit?]
  split
  · rename_i hslice
    exact .inr hslice
  · exact .inl ⟨_, rfl⟩

theorem Edit.exists_delete? {span target : Span} (hcontains : span.contains target = true)
    (hlt : target.start < target.stop) : ∃ edit, Edit.delete? span = some edit := by
  obtain ⟨hstart, hstop⟩ := Span.contains_iff.mp hcontains
  have hnot : span.isEmpty = false := by
    simp only [Span.isEmpty, beq_eq_false_iff_ne]
    omega
  simp [Edit.delete?, hnot]

section

variable {source : Source} {tree : Tree} {reference node member callee call other : Node}
  {text name : String}

/-- A text of name bytes is not yet in the place of a node that holds a name and something else. -/
theorem exists_edit?_of_word (hnest : tree.WellNested source) (hlex : tree.Lexical source)
    (hmention : Mention source tree reference) (hnode : Within (root tree) node)
    (hin : Within node reference) (hother : Within node other)
    (hseparate : other.span.Separate reference.span) (hlt : other.span.start < other.span.stop)
    (hnames : (Source.mk text).bytes.all Source.isNameByte = true) :
    ∃ edit, (Change.replace node.span text).edit? source = some edit := by
  rcases Change.exists_edit?_or source node.span text with hedit | hslice
  · exact hedit
  · have hsame := Source.eq_of_isWord hslice hnames (hnest.contains hnode hin)
      (hmention.isWord hlex) hmention.start_lt_stop
    have hspan := hnest.span_le hnode hother
    rw [hsame] at hseparate
    rcases hseparate with h | h <;> omega

/-- The property of a member expression is a child of its own beside the object. -/
theorem exists_property (hnest : tree.WellNested source) (hmention : Mention source tree reference)
    (hmember : reference.memberOf? = some member) (hname : member.propertyName? source = some name)
    (hne : name ≠ "") :
    ∃ property, Within member property ∧ property.text source = name ∧
      property.span.Separate reference.span ∧ property.span.start < property.span.stop := by
  obtain ⟨_, hobject, hmem, hwithin⟩ := headOf?_eq_some hmention.within hmember
  unfold propertyName? at hname
  split at hname
  · rename_i property hproperty
    split at hname
    · have htext : property.text source = name := Option.some.inj hname
      refine ⟨property, within_of_child? hproperty, htext, ?_, ?_⟩
      · exact hnest.separate_children hwithin (mem_children_of_child? hproperty) hmem
          (child?_ne (by decide) hproperty hobject)
      · exact Source.start_lt_stop_of_read_ne (show property.text source ≠ "" from htext ▸ hne)
    · exact absurd hname (by simp)
  · exact absurd hname (by simp)

/-- The argument list of a call is a child of its own beside the callee. -/
theorem exists_argumentList (hnest : tree.WellNested source) (hlex : tree.Lexical source)
    (hmention : Mention source tree reference) (hcallee : Head reference callee)
    (hcall : callee.callOf? = some call) (harguments : call.arguments?.isSome = true) :
    ∃ list, Within call list ∧ list.span.Separate reference.span ∧
      list.span.start < list.span.stop := by
  obtain ⟨htop, hbelow⟩ := hcallee.within hmention.within
  obtain ⟨_, hfunction, hmem, hwithin⟩ := headOf?_eq_some htop hcall
  obtain ⟨arguments, harguments⟩ := Option.isSome_iff_exists.mp harguments
  obtain ⟨list, hlist, hkind, _⟩ := arguments?_eq_some harguments
  have hin := within_of_child? hlist
  refine ⟨list, hin, ?_, hlex.arguments list (mem_nodes_of_within (hwithin.trans hin)) hkind⟩
  have hsep := hnest.separate_children hwithin (mem_children_of_child? hlist) hmem
    (child?_ne (by decide) hlist hfunction)
  have hspan := hnest.span_le htop hbelow
  rcases hsep with h | h
  · exact .inl (by omega)
  · exact .inr (by omega)

/-- The only name before `.fail` in `done.fail` is `done`. -/
theorem text_eq_of_completionFail (hnest : tree.WellNested source) (hlex : tree.Lexical source)
    (hmention : Mention source tree reference) (hmember : reference.memberOf? = some member)
    (hname : member.propertyName? source = some "fail")
    (hslice : source.slice? member.span = some "done.fail") : reference.text source = "done" := by
  obtain ⟨_, _, hmem, hwithin⟩ := headOf?_eq_some hmention.within hmember
  obtain ⟨property, hproperty, htext, hseparate, hlt⟩ :=
    exists_property hnest hmention hmember hname (by decide)
  have hin := hnest.contains hwithin (.of_mem_children hmem)
  have hin' := hnest.contains hwithin hproperty
  obtain ⟨hstart, hstop⟩ := Span.contains_iff.mp hin
  obtain ⟨hstart', hstop'⟩ := Span.contains_iff.mp hin'
  have hpos := hmention.start_lt_stop
  have hsize : 9 = member.span.stop - member.span.start := Source.size_of_slice? hslice
  -- There are two words in the text, and the second one is the property.
  have hwords : ∀ i < 9, ∀ j < 10, (Source.mk "done.fail").isWord ⟨i, j⟩ = true ∧ i < j →
      i = 0 ∧ j = 4 ∨ i = 5 ∧ j = 9 := by
    decide +kernel
  have hproperties : ∀ i < 9, ∀ j < 10,
      (Source.mk "done.fail").cut ⟨i, j⟩ = (Source.mk "fail").bytes → i = 5 ∧ j = 9 := by
    decide +kernel
  have hword := hwords (reference.span.start - member.span.start) (by omega)
    (reference.span.stop - member.span.start) (by omega)
    ⟨Source.isWord_of_slice? hslice hin (hmention.isWord hlex) hpos, by omega⟩
  have hfail := hproperties (property.span.start - member.span.start) (by omega)
    (property.span.stop - member.span.start) (by omega) (by
      rw [Source.cut_of_slice? hslice hin', ← htext]
      exact (Source.bytes_of_slice? (Source.slice?_of_read_ne
        (show property.text source ≠ "" by rw [htext]; decide))).symm)
  have hfirst : reference.span.start - member.span.start = 0 ∧
      reference.span.stop - member.span.start = 4 := by
    rcases hword with h | h
    · exact h
    · rcases hseparate with h' | h' <;> omega
  apply Source.text_eq_of_bytes
  rw [Source.bytes_of_slice? hmention.slice?_eq, ← Source.cut_of_slice? hslice hin, hfirst.1,
    hfirst.2]
  decide +kernel

end

/-- The two targets that are about the completion callback belong to one method each. -/
theorem Rule.method_of_target {method : String} {rule : Rule} (h : Rule.find? method = some rule) :
    (rule.target = .completionFail → method = "fail") ∧
      (rule.target = .completionEnd → method = "end") := by
  have hall : ∀ rule ∈ Rule.all, (rule.target = .completionFail → rule.method = "fail") ∧
      (rule.target = .completionEnd → rule.method = "end") := by
    decide +kernel
  rw [← Rule.method_of_find? h]
  exact hall rule (List.mem_of_find?_eq_some h)

/-! ## Which uses ask for an edit -/

section

variable {source : Source} {tree : Tree} {reference : Node}

/-- A call asks for an edit, or its callee is already what the rule puts there. -/
theorem Assertion.edit?_cases (assertion : Assertion) (completion : String)
    (hnest : tree.WellNested source) (hlex : tree.Lexical source)
    (hmention : Mention source tree reference)
    (hcontains : ∀ change, Request reference change →
      (change.span source).contains reference.span = true)
    (hhead : Head reference assertion.callee)
    (hcall : assertion.callee.callOf? = some assertion.call)
    (harguments : assertion.call.arguments?.isSome = true) :
    (∃ edit, (assertion.change completion).edit? source = some edit) ∨
      (assertion.rule.target = .completionFail ∧
        source.slice? assertion.callee.span = some (completion ++ ".fail")) ∨
      assertion.rule.target = .completionEnd ∧
        source.slice? assertion.callee.span = some completion := by
  have hstep : Head reference assertion.call := .step hhead (.inr hcall)
  rcases assertion.change_cases completion with ⟨parts, heq, _⟩ | heq | ⟨htarget, heq⟩ | ⟨htarget, heq⟩
  · rw [heq]
    exact .inl ⟨_, rfl⟩
  · refine .inl ?_
    have hrequest := request_removal hstep
    rw [heq]
    unfold removal at hrequest ⊢
    split at hrequest
    · exact Edit.exists_delete? (hcontains _ hrequest) hmention.start_lt_stop
    · obtain ⟨list, hlist, hseparate, hlt⟩ :=
        exists_argumentList hnest hlex hmention hhead hcall harguments
      obtain ⟨htop, hbelow⟩ := hstep.within hmention.within
      exact exists_edit?_of_word hnest hlex hmention htop hbelow hlist hseparate hlt
        (by decide +kernel)
  · rw [heq]
    rcases Change.exists_edit?_or source assertion.callee.span (completion ++ ".fail") with h | h
    · exact .inl h
    · exact .inr (.inl ⟨htarget, h⟩)
  · rw [heq]
    rcases Change.exists_edit?_or source assertion.callee.span completion with h | h
    · exact .inl h
    · exact .inr (.inr ⟨htarget, h⟩)

namespace Context

/-- A reference is renamed, unless it has the name already. -/
theorem edit?_rename_or (hmention : Mention source tree reference) (target : String) :
    (∃ edit, (rename source reference target).edit? source = some edit) ∨
      reference.text source = target := by
  unfold rename
  rcases Change.exists_edit?_or source reference.span
    (if reference.kind = .shorthandProperty then reference.text source ++ ": " ++ target
      else target) with hedit | hslice
  · exact .inl hedit
  · rw [hmention.slice?_eq] at hslice
    have htext := Option.some.inj hslice
    split at htext
    · have hsize := congrArg String.utf8ByteSize htext
      simp only [String.utf8ByteSize_append] at hsize
      have hcolon : (": " : String).utf8ByteSize = 2 := by decide +kernel
      omega
    · exact .inr htext

namespace Use

/-- A use of a named context asks for an edit, unless the reference has the name of the completion
callback and the callback takes one. -/
theorem edit?_or_spelled {context : String} {completion : Bool} {change : Change}
    (hnest : tree.WellNested source) (hlex : tree.Lexical source)
    (hmention : Mention source tree reference)
    (hcontains : ∀ change, Request reference change →
      (change.span source).contains reference.span = true)
    (h : (classify source reference).change? source context completion reference = some change) :
    (∃ edit, change.edit? source = some edit) ∨ (reference.text source = completionName ∧
      (completion = true ∨ (classify source reference).needsCompletion = true)) := by
  -- A member expression with a property is not yet a text of name bytes.
  have hword : ∀ {member : Node} {name text : String}, reference.memberOf? = some member →
      member.propertyName? source = some name → name ≠ "" →
      (Source.mk text).bytes.all Source.isNameByte = true →
      ∃ edit, (Change.replace member.span text).edit? source = some edit := by
    intro member name text hmember hname hne hnames
    obtain ⟨_, _, hmem, hwithin⟩ := headOf?_eq_some hmention.within hmember
    obtain ⟨property, hproperty, _, hseparate, hlt⟩ :=
      exists_property hnest hmention hmember hname hne
    exact exists_edit?_of_word hnest hlex hmention hwithin (.of_mem_children hmem) hproperty
      hseparate hlt hnames
  have hfollow : (if completion then some (rename source reference completionName) else none) =
      some change → (∃ edit, change.edit? source = some edit) ∨
        (reference.text source = completionName ∧
          (completion = true ∨ (classify source reference).needsCompletion = true)) := by
    intro h
    split at h
    · rename_i hcompletion
      cases h
      rcases edit?_rename_or hmention completionName with hedit | htext
      · exact .inl hedit
      · exact .inr ⟨htext, .inl hcompletion⟩
    · exact absurd h (by simp)
  have hclass := classified source reference
  generalize classify source reference = use at h hclass hfollow ⊢
  cases hclass with
  | @assertion member call name rule hmember hname hcall hrule =>
      cases h
      obtain ⟨hcallOf, harguments⟩ := callOf?_of_callWithArguments? hcall
      obtain ⟨hfail, hend⟩ := Rule.method_of_target hrule
      rcases Assertion.edit?_cases ⟨call, member, context, rule⟩ completionName hnest hlex hmention
        hcontains (.step .self (.inl hmember)) hcallOf harguments with
        hedit | ⟨htarget, hslice⟩ | ⟨htarget, hslice⟩
      · exact .inl hedit
      · have hneeds : (Use.assertion call member rule).needsCompletion = true := by
          rw [needsCompletion, show rule.target = .completionFail from htarget]
          rfl
        refine .inr ⟨?_, .inr hneeds⟩
        exact text_eq_of_completionFail hnest hlex hmention hmember (hfail htarget ▸ hname) hslice
      · -- A member expression with the property `end` is longer than a name.
        obtain ⟨edit, hedit⟩ := hword hmember (hend htarget ▸ hname) (by decide)
          (show (Source.mk completionName).bytes.all Source.isNameByte = true by decide +kernel)
        simp only [Change.edit?, hslice, if_true] at hedit
        exact absurd hedit (by simp)
  | endValue hmember hname =>
      cases h
      exact .inl (hword hmember hname (by decide) (by decide +kernel))
  | failValue =>
      cases h
      rcases Change.exists_edit?_or source reference.span completionName with hedit | hslice
      · exact .inl hedit
      · rw [hmention.slice?_eq] at hslice
        exact .inr ⟨Option.some.inj hslice, .inr rfl⟩
  | contextCall hmember hname =>
      cases h
      exact .inl (hword hmember hname (by decide) (by decide +kernel))
  | unmapped | contextAccess | property | whole => exact hfollow h

/-- Nothing is asked for at a use that keeps the parameter, and at an access to the context object,
when there is no completion callback. -/
theorem change?_eq_none {context : String} {completion : Bool}
    (h : (classify source reference).change? source context completion reference = none) :
    completion = false ∧ ((classify source reference).keepsParameter = true ∨
      ∃ member, reference.memberOf? = some member ∧
        member.propertyName? source = some "context" ∧
        member.memberOf?.bind Node.callOf? = none) := by
  have hclass := classified source reference
  generalize classify source reference = use at h hclass ⊢
  have hfollow : (if completion then some (rename source reference completionName) else none) =
      none → completion = false := by
    cases completion <;> simp
  cases hclass with
  | assertion | endValue | failValue | contextCall => exact absurd h (by simp [change?])
  | unmapped | property | whole => exact ⟨hfollow h, .inl rfl⟩
  | contextAccess hmember hname _ hcall =>
      exact ⟨hfollow h, .inr ⟨_, hmember, hname, hcall⟩⟩

end Use

namespace MemberUse

/-- A use of a member asks for an edit, unless the reference has the name of the completion callback
and stands for it. -/
theorem edit?_or_spelled {rule : Rule} {use : MemberUse} (hnest : tree.WellNested source)
    (hlex : tree.Lexical source) (hmention : Mention source tree reference)
    (hcontains : ∀ change, Request reference change →
      (change.span source).contains reference.span = true)
    (h : classify? rule reference = some use) :
    (∃ edit, (use.change source).edit? source = some edit) ∨
      (reference.text source = completionName ∧ rule.target.usesCompletion = true) := by
  -- A name has no dot in it.
  have hdot : reference.text source ≠ completionName ++ ".fail" := by
    intro htext
    have hdots := (Source.isWord_iff.mp (hmention.isWord hlex)).2.2
    rw [← Source.bytes_of_slice? hmention.slice?_eq, htext] at hdots
    exact hdots 46 (by decide +kernel) rfl
  unfold classify? at h
  split at h
  · rename_i call hcall
    cases h
    obtain ⟨hcallOf, harguments⟩ := callOf?_of_callWithArguments? hcall
    rcases Assertion.edit?_cases ⟨call, reference, contextName, rule⟩ completionName hnest hlex
      hmention hcontains .self hcallOf harguments with
      hedit | ⟨_, hslice⟩ | ⟨htarget, hslice⟩
    · exact .inl hedit
    · rw [hmention.slice?_eq] at hslice
      exact absurd (Option.some.inj hslice) hdot
    · rw [hmention.slice?_eq] at hslice
      exact .inr ⟨Option.some.inj hslice, by
        rw [show rule.target = .completionEnd from htarget]
        rfl⟩
  · split at h
    · rename_i htarget
      cases h
      rcases edit?_rename_or hmention completionName with hedit | htext
      · exact .inl hedit
      · exact .inr ⟨htext, by rw [htarget]; rfl⟩
    · cases h
      rcases edit?_rename_or hmention (completionName ++ ".fail") with hedit | htext
      · exact .inl hedit
      · exact absurd htext hdot
    · exact absurd h (by simp)

end MemberUse

end Context

end

/-! ## What becomes of the references -/

namespace Callback

open Context

/-- What becomes of a reference when `edit` takes in the parameter: it has the new name already, it
is the object of an access to `t.context` and the parameter goes, or it is covered and nothing of it
is in the new text. -/
inductive Settled (source : Source) (tree : Tree) (first : Node) (changes : ChangeSet) (edit : Edit)
    (reference : Node) : Prop
  | spelled : edit = .replace first.span completionName →
      reference.text source = completionName → Settled source tree first changes edit reference
  | context {member : Node} : edit.parts = [.text "()"] → reference.memberOf? = some member →
      member.propertyName? source = some "context" →
      member.memberOf?.bind Node.callOf? = none → Settled source tree first changes edit reference
  | covered : changes.Covers reference.span → (tree.Readable source →
        ∀ piece, .source piece ∈ changes.pieces → piece.Separate reference.span) →
      Settled source tree first changes edit reference

variable {source : Source} {tree : Tree} {callback first body reference : Node}
  {completion : Bool} {changes : ChangeSet} {edit : Edit} {change : Change} {binding : BindingId}

/-- The edit that removes the parameter. -/
theorem parts_of_removeParameter (h : change ∈ (removeParameter source callback).changes)
    (hedit : change.edit? source = some edit) : edit.parts = [.text "()"] := by
  obtain ⟨node, _, _, rfl⟩ := mem_changes_removeParameter h
  rw [Change.eq_of_edit?_replace hedit]
  rfl

theorem completes_of_needsCompletion {table : ScopeTable}
    (href : reference ∈ table.references source body binding)
    (h : (Use.classify source reference).needsCompletion = true) :
    completes completion (namedUses table source body binding) = true := by
  rw [completes, Bool.or_eq_true, List.any_eq_true]
  exact .inr ⟨_, List.mem_map.mpr ⟨reference, href, rfl⟩, h⟩

namespace Conversion

/-- An edit that takes in the parameter is not asked for in the body. -/
theorem mem_tail (h : Conversion source tree callback first body completion changes)
    (hlt : first.span.start < first.span.stop) {asked tail : List Change}
    (hasked : ∀ change ∈ asked, ∃ reference, Within body reference ∧ Request reference change)
    (hmem : change ∈ asked ++ tail) (hedit : change.edit? source = some edit)
    (hfirst : edit.span.contains first.span = true) : change ∈ tail := by
  rcases List.mem_append.mp hmem with hmem | hmem
  · obtain ⟨reference, href, hrequest⟩ := hasked change hmem
    have hinside := (hrequest.inside h.nest h.within h.literal h.body_mem href).contained
    obtain ⟨child, hchild, hin⟩ := exists_of_mem_parameters h.mem_parameters
    have hsep := h.nest.separate (apart_body h.within hchild hin h.child)
    rw [← Change.span_of_edit? hedit, Span.contains_iff] at hinside
    rw [Span.contains_iff] at hfirst
    omega
  · exact hmem

theorem settled_of_request (h : Conversion source tree callback first body completion changes)
    (hmention : Mention source tree reference) (href : Within body reference)
    (hrequest : Request reference change)
    (hchange : change ∈ (plan (ScopeTable.build source tree) source callback completion).changes)
    (hasked : ∃ asked, change.edit? source = some asked) :
    Settled source tree first changes edit reference := by
  obtain ⟨asked, hasked⟩ := hasked
  obtain ⟨hcovers, hpieces⟩ := h.covered_of_request hmention href hrequest hchange hasked
  exact .covered hcovers hpieces

/-- The plan is one for a named context or one for a context that is taken apart. -/
theorem plan_eq (h : Conversion source tree callback first body completion changes) :
    ((patternOf first).kind = .identifier →
      plan (ScopeTable.build source tree) source callback completion =
        namedPlan (ScopeTable.build source tree) source callback first (patternOf first)
          completion) ∧
    ((patternOf first).kind = .objectPattern →
      plan (ScopeTable.build source tree) source callback completion =
        destructuredPlan (ScopeTable.build source tree) source callback first (patternOf first)
          completion) := by
  obtain ⟨rest, hparameters⟩ := List.head?_eq_some_iff.mp h.head
  constructor
  · exact plan_eq_namedPlan hparameters
  · intro hkind
    simp only [plan, hparameters, hkind]

/-- A named context: every reference in the body is settled. -/
theorem settled_of_named (h : Conversion source tree callback first body completion changes)
    (hlt : first.span.start < first.span.stop) (hkind : (patternOf first).kind = .identifier)
    (hdeclared : (ScopeTable.build source tree).declaredAt? (patternOf first) = some binding)
    (hedit : edit ∈ changes.edits) (hfirst : edit.span.contains first.span = true)
    (hmention : Mention source tree reference) (hin : Within body reference)
    (href : reference ∈ (ScopeTable.build source tree).references source body binding) :
    Settled source tree first changes edit reference := by
  have hplan : (namedPlan (ScopeTable.build source tree) source callback first (patternOf first)
      completion).changes = _ := changes_namedPlan hdeclared h.child
  rw [← h.plan_eq.1 hkind] at hplan
  obtain ⟨change, hchange, hask⟩ := h.origin hedit
  rw [hplan] at hchange
  have htail := h.mem_tail hlt (by
    intro change hchange
    obtain ⟨other, hother, huse⟩ := List.mem_flatMap.mp hchange
    have hin := ScopeTable.within_of_mem_references hother
    exact ⟨other, hin, Use.request_of_change? (Option.mem_toList.mp huse)⟩) hchange hask hfirst
  cases huse : (Use.classify source reference).change? source ((patternOf first).text source)
      (completes completion (namedUses (ScopeTable.build source tree) source body binding))
      reference with
  | some asked =>
      rcases Use.edit?_or_spelled h.nest h.lex hmention (fun _ hrequest =>
        hrequest.contains_reference h.nest h.within h.literal h.body_mem hin) huse with
        hasked | ⟨htext, hneeds⟩
      · refine h.settled_of_request hmention hin (Use.request_of_change? huse) ?_ hasked
        rw [hplan]
        exact List.mem_append_left _
          (List.mem_flatMap.mpr ⟨reference, href, Option.mem_toList.mpr huse⟩)
      · have hcompletes : completes completion
            (namedUses (ScopeTable.build source tree) source body binding) = true := by
          rcases hneeds with hneeds | hneeds
          · exact hneeds
          · exact completes_of_needsCompletion href hneeds
        rw [if_pos hcompletes, List.mem_singleton] at htail
        rw [htail] at hask
        exact .spelled (Change.eq_of_edit?_replace hask) htext
  | none =>
      obtain ⟨hfalse, hkeeps | ⟨member, hmember, hname, hcall⟩⟩ := Use.change?_eq_none huse
      · have hkeep : ((namedUses (ScopeTable.build source tree) source body binding).any
            fun use => use.2.keepsParameter) = true :=
          List.any_eq_true.mpr ⟨_, List.mem_map.mpr ⟨reference, href, rfl⟩, hkeeps⟩
        rw [hfalse, hkeep] at htail
        exact absurd htail (by simp)
      · rw [hfalse, if_neg (by simp)] at htail
        split at htail
        · exact absurd htail List.not_mem_nil
        · exact .context (parts_of_removeParameter htail hask) hmember hname hcall

/-- A context that is taken apart: every reference in the body to one of its members is settled. -/
theorem settled_of_member (h : Conversion source tree callback first body completion changes)
    (hlt : first.span.start < first.span.stop) (hkind : (patternOf first).kind = .objectPattern)
    {name : Node} (hname : name ∈ (patternOf first).patternNames)
    (hdeclared : (ScopeTable.build source tree).declaredAt? name = some binding)
    (hedit : edit ∈ changes.edits) (hfirst : edit.span.contains first.span = true)
    (hmention : Mention source tree reference) (hin : Within body reference)
    (href : reference ∈ (ScopeTable.build source tree).references source body binding) :
    Settled source tree first changes edit reference := by
  obtain ⟨change, hchange, hask⟩ := h.origin hedit
  rw [h.plan_eq.2 hkind] at hchange
  obtain ⟨_, members, all, hbody, hmembers, hall⟩ := exists_of_mem_destructuredPlan hchange
  rw [h.child] at hbody
  cases hbody
  have hplan : (destructuredPlan (ScopeTable.build source tree) source callback first
      (patternOf first) completion).changes = _ := changes_destructuredPlan h.child hmembers hall
  rw [hplan] at hchange
  rw [← h.plan_eq.2 hkind] at hplan
  have htail := h.mem_tail hlt (by
    intro change hchange
    obtain ⟨_, _, _, _, other, _, _, hother, hrequest⟩ := exists_of_mem_memberChanges hall hchange
    have hin := ScopeTable.within_of_mem_references hother
    exact ⟨other, hin, hrequest⟩) hchange hask hfirst
  obtain ⟨member, hmember, rfl⟩ := exists_member hkind hmembers hname
  obtain ⟨entry, hentry, _, hconverted⟩ :=
    exists_right_of_forall₂ (Member.forall₂_of_usesAll hall) hmember
  have hsame := hconverted.declared
  rw [hdeclared] at hsame
  cases hsame
  obtain ⟨use, huse, hclass⟩ := exists_right_of_forall₂ hconverted.supported href
  rcases MemberUse.edit?_or_spelled h.nest h.lex hmention (fun _ hrequest =>
    hrequest.contains_reference h.nest h.within h.literal h.body_mem hin) hclass with
    hasked | ⟨htext, huses⟩
  · refine h.settled_of_request hmention hin (MemberUse.request_of_classify? hclass) ?_ hasked
    rw [hplan]
    exact List.mem_append_left _
      (List.mem_flatMap.mpr ⟨entry, hentry, List.mem_map.mpr ⟨use, huse, rfl⟩⟩)
  · have hcompletes : (completion || all.any fun entry => entry.1.target.usesCompletion) = true := by
      rw [Bool.or_eq_true, List.any_eq_true]
      exact .inr ⟨entry, hentry, huses⟩
    rw [if_pos hcompletes, List.mem_singleton] at htail
    rw [htail] at hask
    exact .spelled (Change.eq_of_edit?_replace hask) htext

end Conversion

/-- When the parameter is renamed or removed, no reference to a name that it binds is left behind:
each is covered by an edit that does not copy it, and nothing of it is in the new text, unless it has
the new name already or is the object of an access to the context object. -/
theorem references_settled (source : Source) (tree : Tree) (callback first body : Node)
    (rest : List Node) (completion : Bool) (changes : ChangeSet) (edit : Edit)
    (hnest : tree.WellNested source) (hlex : tree.Lexical source)
    (hcallback : Within (root tree) callback) (hliteral : callback.kind.isCallbackLiteral = true)
    (hparameters : callback.parameters = first :: rest) (hbody : callback.child? .body = some body)
    (hrun : ChangeSet.applyAll { source }
      (plan (ScopeTable.build source tree) source callback completion).changes = .ok changes)
    (hedit : edit ∈ changes.edits) (hfirst : edit.span.contains first.span = true) :
    ∀ name ∈ first.patternNames, ∀ binding,
      (ScopeTable.build source tree).declaredAt? name = some binding →
      ∀ reference ∈ (ScopeTable.build source tree).references source body binding,
        Settled source tree first changes edit reference := by
  intro name hname binding hdeclared reference href
  have h : Conversion source tree callback first body completion changes :=
    ⟨hnest, hlex, hcallback, hliteral, by rw [hparameters]; rfl, hbody, hrun⟩
  have htop := hcallback.trans (below_of_mem_parameters h.mem_parameters).1
  have hbelow := within_of_mem_patternNames hname
  obtain ⟨hmention, hin⟩ := Mention.of_mem_references (hcallback.trans (within_of_child? hbody))
    (htop.trans hbelow) hdeclared href
  have hlt := start_lt_stop_of_declaredAt? hnest htop hbelow hdeclared
  obtain ⟨change, hchange, _⟩ := h.origin hedit
  obtain ⟨first', _, _, hparameters', hkind, _⟩ := origin_of_plan hchange
  rw [hparameters] at hparameters'
  cases hparameters'
  rw [patternNames_patternOf hkind] at hname
  rcases hkind with hkind | hkind
  · rw [patternNames_identifier hkind, List.mem_singleton] at hname
    rw [hname] at hdeclared
    exact h.settled_of_named hlt hkind hdeclared hedit hfirst hmention hin href
  · exact h.settled_of_member hlt hkind hname hdeclared hedit hfirst hmention hin href

theorem references_settled_sample :
    ∃ callback first body rest changes edit,
      (Sample.tree.WellNested Sample.source ∧ Sample.tree.Lexical Sample.source ∧
        Within (root Sample.tree) callback ∧ callback.kind.isCallbackLiteral = true ∧
        callback.parameters = first :: rest ∧ callback.child? .body = some body ∧
        ChangeSet.applyAll { source := Sample.source }
          (plan (ScopeTable.build Sample.source Sample.tree) Sample.source callback false).changes =
            .ok changes ∧
        edit ∈ changes.edits ∧ edit.span.contains first.span = true) ∧
      ∃ name ∈ first.patternNames, ∃ binding,
        (ScopeTable.build Sample.source Sample.tree).declaredAt? name = some binding ∧
        ∃ reference ∈
          (ScopeTable.build Sample.source Sample.tree).references Sample.source body binding,
          Settled Sample.source Sample.tree first changes edit reference := by
  have hnest : Sample.tree.WellNested Sample.source := by decide +kernel
  have hlex : Sample.tree.Lexical Sample.source := by decide +kernel
  -- The test inside the other one loses its parameter, and its only use is rewritten.
  have hfound : ((root Sample.tree).nodes.any fun callback =>
      callback.kind.isCallbackLiteral && callback.parameters.head?.any fun first =>
        (callback.child? .body).any fun body =>
          ((ChangeSet.applyAll { source := Sample.source } (plan
              (ScopeTable.build Sample.source Sample.tree) Sample.source callback
              false).changes).toOption.any fun changes =>
            changes.edits.any fun edit => edit.span.contains first.span) &&
          first.patternNames.any fun name =>
            ((ScopeTable.build Sample.source Sample.tree).declaredAt? name).any fun binding =>
              ((ScopeTable.build Sample.source Sample.tree).references Sample.source body
                binding).any fun _ => true) = true := by
    decide +kernel
  simp only [List.any_eq_true, Bool.and_eq_true, Option.any_eq_true,
    ChangeSet.toOption_applyAll_eq_some] at hfound
  obtain ⟨callback, hcallback, hliteral, first, hfirst, body, hbody,
    ⟨changes, hchanges, edit, hedit, hcontains⟩, name, hname, binding, hdeclared, reference, href,
    _⟩ := hfound
  obtain ⟨rest, hparameters⟩ := List.head?_eq_some_iff.mp hfirst
  have hwithin := mem_nodes_iff.mp hcallback
  exact ⟨callback, first, body, rest, changes, edit,
    ⟨hnest, hlex, hwithin, hliteral, hparameters, hbody, hchanges, hedit, hcontains⟩,
    name, hname, binding, hdeclared, reference, href,
    references_settled Sample.source Sample.tree callback first body rest false changes edit hnest
      hlex hwithin hliteral hparameters hbody hchanges hedit hcontains name hname binding hdeclared
      reference href⟩

end Callback

end JestMigration
