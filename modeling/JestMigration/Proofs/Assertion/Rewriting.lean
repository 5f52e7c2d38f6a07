/-
# `Proofs.Assertion.Rewriting` — what a call of a context method becomes

`Rewritten` gives the text that takes the place of a call, for each form that a
rule can ask for.  An argument stands there with all the edits inside it carried
out; what is not named there, further arguments and comments, is gone.

The edit of a call gives that text in whatever change set it has become a part
of (`rewritten_of_edit?`), since slots are copied as if each stood alone.  A call
with too few arguments is written in the same way, and is reported as well
(`run_plan`).
-/
import JestMigration.Proofs.Callback.Members
import JestMigration.Proofs.ChangeSet.Locality

namespace JestMigration

open Node

namespace Arity

/-- The number of arguments that a call has to have. -/
def required : Arity → Nat
  | .exactly count => count
  | .atLeast count => count
  | .any => 0

theorem missing_pos_iff {arity : Arity} {given : Nat} :
    0 < arity.missing given ↔ given < arity.required := by
  cases arity with
  | exactly count => exact Nat.sub_pos_iff_lt
  | atLeast count => exact Nat.sub_pos_iff_lt
  | any => simp [missing, required]

end Arity

namespace Assertion

/-! ## The text of a call -/

/-- An argument with the edits inside it carried out, or what stands for a missing one. -/
def argumentText (changes : ChangeSet) (arguments : List Node) (index : Nat) : String :=
  (arguments[index]?.map fun argument => changes.copy argument.span).getD "undefined"

/-- What the matcher is called with. -/
def expectedText (changes : ChangeSet) (arguments : List Node) : Expected → String
  | .nothing => ""
  | .literal text => text
  | .secondArgument => argumentText changes arguments 1

/-- The message of a snapshot: of the arguments after the first the last that is no object. -/
def messageText (changes : ChangeSet) (arguments : List Node) : String :=
  (((arguments.drop 1).filter fun argument => argument.kind != .object).getLast?.map
    fun message => changes.copy message.span).getD ""

/-- `.not` for a negated rule. -/
def negationText (rule : Rule) : String :=
  if rule.negated then ".not" else ""

/-- The text takes the place of the call, or of the part of it that its rule is about. -/
structure Rewritten (changes : ChangeSet) (assertion : Assertion) (completion text : String) :
    Prop where
  matcher : ∀ name value, assertion.rule.target = .matcher name value →
    text = "expect(" ++ argumentText changes assertion.arguments 0 ++ ")" ++
      negationText assertion.rule ++ "." ++ name ++ "(" ++
        expectedText changes assertion.arguments value ++ ")"
  throwsError : assertion.rule.target = .throws → ∀ error, assertion.arguments[1]? = some error →
    text = "expect(" ++ argumentText changes assertion.arguments 0 ++ ")" ++
      negationText assertion.rule ++ ".toThrowError(" ++ changes.copy error.span ++ ")"
  throwsAny : assertion.rule.target = .throws → assertion.arguments[1]? = none →
    text = "expect(" ++ argumentText changes assertion.arguments 0 ++ ")" ++
      negationText assertion.rule ++ ".toThrow()"
  assertions : assertion.rule.target = .assertions →
    text = "expect.assertions(" ++ argumentText changes assertion.arguments 0 ++ ")"
  snapshot : assertion.rule.target = .snapshot →
    text = "expect(" ++ argumentText changes assertion.arguments 0 ++ ").toMatchSnapshot(" ++
      messageText changes assertion.arguments ++ ")"
  remove : assertion.rule.target = .remove →
    text = if (statement? assertion.call).isSome then "" else "undefined"
  completionFail : assertion.rule.target = .completionFail → text = completion ++ ".fail"
  completionEnd : assertion.rule.target = .completionEnd → text = completion

section

variable {changes : ChangeSet} {arguments : List Node}

@[simp] theorem write_slot (index : Nat) :
    changes.write (slot arguments index) = argumentText changes arguments index := by
  unfold slot argumentText
  cases arguments[index]? with
  | none => rfl
  | some argument => rfl

theorem join_subject : String.join ((subject arguments).map changes.write) =
    "expect(" ++ argumentText changes arguments 0 ++ ")" := by
  simp [subject, String.append_assoc]

theorem join_negation (rule : Rule) :
    String.join ((negation rule).map changes.write) = negationText rule := by
  unfold negation negationText
  split <;> simp

theorem join_expected (value : Expected) :
    String.join ((expected arguments value).map changes.write) =
      expectedText changes arguments value := by
  cases value <;> simp [expected, expectedText]

theorem join_snapshotMessage : String.join ((snapshotMessage arguments).map changes.write) =
    messageText changes arguments := by
  unfold snapshotMessage messageText
  rw [List.getLast?_eq_head?_reverse, ← List.filter_reverse, List.head?_filter]
  cases (arguments.drop 1).reverse.find? fun argument => argument.kind != .object with
  | none => rfl
  | some message => simp

end

variable {source : Source} {tree : Tree} {assertion : Assertion} {completion : String}

/-! ## The edit of a call -/

/-- An argument is inside its call, and does not hold all of it. -/
theorem argument_bounds (hnest : tree.WellNested source)
    (hcallee : Within (root tree) assertion.callee)
    (hcall : assertion.callee.callOf? = some assertion.call)
    (hspelled : assertion.callee.span.start < assertion.callee.span.stop) {argument : Node}
    (hargument : argument ∈ assertion.arguments) :
    assertion.call.span.contains argument.span = true ∧
      argument.span.contains assertion.call.span = false := by
  obtain ⟨_, hfunction, _, hwithin⟩ := headOf?_eq_some hcallee hcall
  obtain ⟨list, hlist, hmem⟩ := exists_list_of_mem_arguments hargument
  exact hnest.argument_bounds hwithin hfunction hspelled hlist hmem

section

variable {later : ChangeSet} {edit : Edit}

/-- Whatever else is recorded, the edit of a call comes to the text that its rule asks for. -/
theorem rewritten_of_edit? (hedit : (assertion.change completion).edit? source = some edit)
    (hout : ∀ argument ∈ assertion.arguments, argument.span.contains assertion.call.span = false)
    (hslots : ∀ edit ∈ later.edits, ∀ slot, .source slot ∈ edit.parts →
      edit.span.contains slot = true) :
    assertion.Rewritten later completion (later.putIn edit) := by
  have htemplate : ∀ {parts : List Part},
      assertion.change completion = .template assertion.call.span parts →
      later.putIn edit = String.join (parts.map later.write) := by
    intro parts hchange
    rw [hchange] at hedit
    cases hedit
    refine ChangeSet.putIn_template hslots fun slot hslot => ?_
    obtain ⟨argument, hargument, rfl⟩ := (slots_of_template hchange).2 slot hslot
    exact hout argument hargument
  have hreplace : ∀ {span : Span} {text : String},
      assertion.change completion = .replace span text → later.putIn edit = text := by
    intro span text hchange
    rw [hchange] at hedit
    rw [Change.eq_of_edit?_replace hedit, ChangeSet.putIn_replace]
  refine ⟨?_, ?_, ?_, ?_, ?_, ?_, ?_, ?_⟩
  · intro name value htarget
    simp only [change, htarget] at htemplate
    rw [htemplate rfl]
    simp only [List.map_append, String.join_append, join_subject, join_negation, join_expected]
    simp [String.append_assoc]
  · intro htarget error herror
    simp only [change, htarget] at htemplate
    rw [htemplate rfl]
    simp only [List.map_append, String.join_append, join_subject, join_negation]
    simp [thrown, herror, String.append_assoc]
  · intro htarget hnone
    simp only [change, htarget] at htemplate
    rw [htemplate rfl]
    simp only [List.map_append, String.join_append, join_subject, join_negation]
    simp [thrown, hnone, String.append_assoc]
  · intro htarget
    simp only [change, htarget] at htemplate
    rw [htemplate rfl]
    simp [String.append_assoc]
  · intro htarget
    simp only [change, htarget] at htemplate
    rw [htemplate rfl]
    simp only [List.map_append, String.join_append, join_subject, join_snapshotMessage]
    simp [String.append_assoc]
  · intro htarget
    simp only [change, htarget, removal] at hreplace hedit
    cases hstatement : statement? assertion.call with
    | none =>
        rw [hstatement] at hreplace
        exact hreplace rfl
    | some statement =>
        rw [hstatement] at hedit
        rw [Edit.eq_of_delete? hedit, ChangeSet.putIn_delete, Option.isSome_some, if_pos rfl]
  · intro htarget
    simp only [change, htarget] at hreplace
    exact hreplace rfl
  · intro htarget
    simp only [change, htarget] at hreplace
    exact hreplace rfl

/-- A call that is given one of the forms of `expect` is replaced as a whole. -/
theorem span_of_edit? (hedit : (assertion.change completion).edit? source = some edit)
    (hremove : assertion.rule.target ≠ .remove)
    (hcompletion : assertion.rule.target.usesCompletion = false) :
    edit.span = assertion.call.span := by
  rw [Change.span_of_edit? hedit]
  cases htarget : assertion.rule.target with
  | matcher | throws | assertions | snapshot =>
      simp only [change, htarget]
      rfl
  | remove => exact absurd htarget hremove
  | completionFail | completionEnd =>
      rw [htarget] at hcompletion
      exact absurd hcompletion (by decide)

/-- The slots of the edit of a call are inside it. -/
theorem slots_of_edit? (hedit : (assertion.change completion).edit? source = some edit)
    (hin : ∀ argument ∈ assertion.arguments,
      assertion.call.span.contains argument.span = true) :
    ∀ slot, .source slot ∈ edit.parts → edit.span.contains slot = true := by
  intro slot hslot
  cases hchange : assertion.change completion with
  | template span parts =>
      obtain ⟨rfl, hslots⟩ := slots_of_template hchange
      rw [hchange] at hedit
      cases hedit
      obtain ⟨argument, hargument, rfl⟩ := hslots slot (Part.source_mem_of_mem_merge hslot)
      exact hin argument hargument
  | replace span text =>
      rw [hchange] at hedit
      rw [Change.eq_of_edit?_replace hedit] at hslot
      exact absurd hslot (by simp [Edit.replace])
  | deleteStatement statement | deleteStatementLines statement =>
      rw [hchange] at hedit
      rw [Edit.eq_of_delete? hedit] at hslot
      exact absurd hslot List.not_mem_nil

end

/-! ## The report about a call -/

/-- A call with too few arguments is reported, and its change is carried out all the same. -/
theorem run_plan {before : Ledger} {changes : ChangeSet}
    (h : before.changes.apply (assertion.change completion) = .ok changes) :
    before.run (assertion.plan source completion) = .ok ⟨changes,
      if assertion.arguments.length < assertion.rule.arity.required then
        Diagnostic.record before.log (.ofNode source assertion.call (Finding.missingArguments
          assertion.context assertion.rule.method assertion.rule.arity).message)
      else before.log⟩ := by
  have harity : (assertion.plan source completion).diagnostics =
      if assertion.arguments.length < assertion.rule.arity.required then
        [.ofNode source assertion.call (Finding.missingArguments assertion.context
          assertion.rule.method assertion.rule.arity).message]
      else [] := by
    simp only [plan, arityPlan, Arity.missing_pos_iff, Plan.diagnostics_append,
      Plan.diagnostics_change, List.append_nil]
    split <;> rfl
  simp only [Ledger.run_eq, changes_plan, ChangeSet.applyAll, h, harity]
  split <;> rfl

/-- The edit of a call that is accepted as a new one gives, in every change set that it is part of,
the text that the rule of the call asks for, with the edits inside the arguments carried out.  Where
the edit is in no other one, that text stands between what comes before the call and what comes
behind it.  A call with too few arguments is reported where it begins, and written all the same. -/
theorem call_written_by_rule (source : Source) (tree : Tree) (assertion : Assertion)
    (completion : String) (before : Ledger) (changes : ChangeSet)
    (hnest : tree.WellNested source) (hcallee : Within (root tree) assertion.callee)
    (hcall : assertion.callee.callOf? = some assertion.call)
    (hspelled : assertion.callee.span.start < assertion.callee.span.stop)
    (happly : before.changes.apply (assertion.change completion) = .ok changes)
    (hnew : changes ≠ before.changes) :
    ∃ edit, changes = { before.changes with edits := before.changes.edits ++ [edit] } ∧
      (assertion.rule.target ≠ .remove → assertion.rule.target.usesCompletion = false →
        edit.span = assertion.call.span) ∧
      (∀ later : ChangeSet, edit ∈ later.edits →
        (∀ other ∈ later.edits, other ≠ edit → ∀ slot, .source slot ∈ other.parts →
          other.span.contains slot = true) →
        later.render = later.copy later.source.whole ∧
        assertion.Rewritten later completion (later.putIn edit) ∧
        (ChangeSet.Nestable later.edits → ∀ span, ChangeSet.Outermost later.edits span edit →
          later.copy span = later.copy ⟨span.start, edit.span.start⟩ ++ later.putIn edit ++
            later.copy ⟨edit.span.stop, span.stop⟩)) ∧
      before.run (assertion.plan source completion) = .ok ⟨changes,
        if assertion.arguments.length < assertion.rule.arity.required then
          Diagnostic.record before.log (.ofNode source assertion.call (Finding.missingArguments
            assertion.context assertion.rule.method assertion.rule.arity).message)
        else before.log⟩ := by
  have hbounds : ∀ argument ∈ assertion.arguments,
      assertion.call.span.contains argument.span = true ∧
        argument.span.contains assertion.call.span = false :=
    fun argument => argument_bounds hnest hcallee hcall hspelled
  have hpush := happly
  rw [ChangeSet.apply_eq] at hpush
  cases hedit : (assertion.change completion).edit? before.changes.source with
  | none =>
      rw [hedit] at hpush
      exact absurd (Except.ok.inj hpush).symm hnew
  | some edit =>
      rw [hedit] at hpush
      rcases ChangeSet.push_cases hpush with ⟨hsame, _⟩ | ⟨hafter, _⟩
      · exact absurd hsame hnew
      · refine ⟨edit, hafter, span_of_edit? hedit, ?_, run_plan happly⟩
        intro later hmem hothers
        have hslots : ∀ other ∈ later.edits, ∀ slot, .source slot ∈ other.parts →
            other.span.contains slot = true := by
          intro other hother
          by_cases heq : other = edit
          · rw [heq]
            exact slots_of_edit? hedit fun argument hargument => (hbounds argument hargument).1
          · exact hothers other hother heq
        exact ⟨later.render_eq_copy, rewritten_of_edit? hedit
          (fun argument hargument => (hbounds argument hargument).2) hslots,
          fun hnestable span houter => ChangeSet.copy_split hnestable hmem houter⟩

/-- The second argument is missing, and the first has been replaced in the meantime. -/
theorem call_written_by_rule_apart :
    ∃ (assertion : Assertion) (edit : Edit), assertion.rule.method = "is" ∧
      assertion.arguments.length = 1 ∧
      Ledger.run ⟨{ source := Apart.source }, []⟩ (assertion.plan Apart.source "done") =
        .ok ⟨{ source := Apart.source, edits := [edit] },
          [⟨some ⟨54, 3⟩, "\"t.is\" should have 2 arguments"⟩]⟩ ∧
      ChangeSet.putIn { source := Apart.source, edits := [edit, .replace ⟨59, 60⟩ "x"] } edit =
        "expect(x).toBe(undefined)" := by
  have hfound : ((root Apart.tree).nodes.any fun callee =>
      callee.span == ⟨54, 58⟩ && callee.callOf?.any fun call => call.span == ⟨54, 61⟩ &&
        (call.arguments?.getD []).map Node.span == [⟨59, 60⟩] &&
          (Rule.find? "is").any fun rule =>
            decide (rule.target = .matcher "toBe" .secondArgument ∧ rule.negated = false) &&
            (Ledger.run ⟨{ source := Apart.source }, []⟩ (Assertion.plan Apart.source
              ⟨call, callee, "t", rule⟩ "done")).toOption.any fun after =>
                after.log == [⟨some ⟨54, 3⟩, "\"t.is\" should have 2 arguments"⟩] &&
                (ChangeSet.apply { source := Apart.source } (Assertion.change
                  ⟨call, callee, "t", rule⟩ "done")).toOption.any fun changes =>
                    changes != { source := Apart.source }) = true := by
    decide +kernel
  simp only [List.any_eq_true, Bool.and_eq_true, Option.any_eq_true, beq_iff_eq, bne_iff_ne,
    decide_eq_true_eq, toOption_eq_some] at hfound
  obtain ⟨callee, hcallee, hspan, call, hcall, ⟨hcallspan, harguments⟩, rule, hrule,
    ⟨htarget, hnegated⟩, after, hafter, hlog, changes, hchanges, hnew⟩ := hfound
  obtain ⟨argument, harguments, hargument⟩ := List.map_eq_singleton_iff.mp harguments
  obtain ⟨edit, hrecorded, hspan', hlater, hrun⟩ := call_written_by_rule Apart.source Apart.tree
    ⟨call, callee, "t", rule⟩ "done" ⟨{ source := Apart.source }, []⟩ changes (by decide +kernel)
    (mem_nodes_iff.mp hcallee) hcall (by simp [hspan]) hchanges hnew
  have hedit : edit.span = ⟨54, 61⟩ := by
    rw [hspan' (by simp [htarget]) (by simp [htarget, Target.usesCompletion])]
    exact hcallspan
  refine ⟨⟨call, callee, "t", rule⟩, edit, Rule.method_of_find? hrule, ?_, ?_, ?_⟩
  · simp [Assertion.arguments, harguments]
  · rw [hafter] at hrun
    rw [hafter, ← hlog, Except.ok.inj hrun, hrecorded]
    rfl
  · have hlater := (hlater { source := Apart.source, edits := [edit, .replace ⟨59, 60⟩ "x"] }
      List.mem_cons_self (by
        intro other hother hne slot hslot
        rcases List.mem_cons.mp hother with rfl | hother
        · exact absurd rfl hne
        · rw [List.mem_singleton.mp hother] at hslot
          exact absurd hslot (by simp [Edit.replace]))).2.1.matcher "toBe" .secondArgument htarget
    have hsorted : ([edit, .replace ⟨59, 60⟩ "x"] : List Edit).Pairwise
        fun a b => a.precedes b = true := by
      simp [Edit.precedes, hedit, Edit.replace]
    have hcopy : ChangeSet.copy { source := Apart.source, edits := [edit, .replace ⟨59, 60⟩ "x"] }
        ⟨59, 60⟩ = "x" := by
      -- The call is not inside its argument, and is passed over.
      rw [ChangeSet.copy, List.mergeSort_of_pairwise hsorted, ChangeSet.size, List.length_cons,
        ChangeSet.expand, ChangeSet.sweep, if_neg (by simp [hedit, Span.contains])]
      show String.join [Apart.source.read ⟨59, 59⟩, "x", Apart.source.read ⟨60, 60⟩] = "x"
      decide +kernel
    rw [hlater]
    simp [argumentText, expectedText, negationText, Assertion.arguments, harguments, hargument,
      hcopy, hnegated]

end Assertion

end JestMigration
