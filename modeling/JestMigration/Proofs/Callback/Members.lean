/-
# `Proofs.Callback.Members` — a context that is taken apart is converted as a whole or not at all

Carrying out a plan step by step, on top of whatever has been recorded and
reported before, is `Ledger.run`.  It comes to recording the changes of the plan
and adding its diagnostics to the log (`run_eq`), so it is what migrating a file
does with the plan for the file (`carryOut_eq_run`).

For a callback that takes its context apart, `Refused` lists what can be in the
way and the one thing that is said about each; `Convertible` is the opposite.
The plan for such a callback is a single report or nothing at all, or it goes
through all references of all members and only then to the parameter
(`destructuredPlan_cases`).
-/
import JestMigration.Migration
import JestMigration.Proofs.Callback.Dangling
import JestMigration.Proofs.Callback.Reports

namespace JestMigration

/-! ## Plans step by step -/

/-- What there is while plans are carried out: the edits recorded and the diagnostics raised. -/
structure Ledger where
  changes : ChangeSet
  log : List Diagnostic
  deriving DecidableEq

namespace Ledger

/-- Carries out one step. -/
def step (ledger : Ledger) : Step → Except Conflict Ledger
  | .change change => (ledger.changes.apply change).map fun changes => { ledger with changes }
  | .report diagnostic => .ok { ledger with log := Diagnostic.record ledger.log diagnostic }

/-- Carries out steps in order, up to the first conflict. -/
def run (ledger : Ledger) : Plan → Except Conflict Ledger
  | [] => .ok ledger
  | step :: rest => (ledger.step step).bind fun next => next.run rest

theorem run_append (first second : Plan) : ∀ ledger : Ledger,
    ledger.run (first ++ second) = (ledger.run first).bind fun middle => middle.run second := by
  induction first with
  | nil =>
      intro ledger
      rfl
  | cons step rest ih =>
      intro ledger
      rw [List.cons_append, run, run]
      cases ledger.step step with
      | error conflict => rfl
      | ok next => exact ih next

/-- A run records the changes of the plan and adds its diagnostics to the log. -/
theorem run_eq (plan : Plan) : ∀ ledger : Ledger,
    ledger.run plan = (ledger.changes.applyAll plan.changes).map fun changes =>
      ⟨changes, plan.diagnostics.foldl Diagnostic.record ledger.log⟩ := by
  induction plan with
  | nil =>
      intro ledger
      rfl
  | cons step rest ih =>
      intro ledger
      rw [run]
      cases step with
      | report diagnostic => exact ih { ledger with log := Diagnostic.record ledger.log diagnostic }
      | change change =>
          show _ = (ChangeSet.applyAll ledger.changes (change :: Plan.changes rest)).map _
          rw [Ledger.step, ChangeSet.applyAll]
          cases ledger.changes.apply change with
          | error conflict => rfl
          | ok changes => exact ih { ledger with changes }

theorem run_eq_ok_iff {before after : Ledger} {plan : Plan} : before.run plan = .ok after ↔
    before.changes.applyAll plan.changes = .ok after.changes ∧
      after.log = plan.diagnostics.foldl Diagnostic.record before.log := by
  rw [run_eq]
  cases before.changes.applyAll plan.changes with
  | error conflict => simp [Except.map]
  | ok changes =>
      cases after
      simp [Except.map, eq_comm]

theorem recorded_run {before after : Ledger} {plan : Plan} (h : before.run plan = .ok after) :
    ChangeSet.Recorded before.changes plan.changes after.changes :=
  ChangeSet.recorded_applyAll (run_eq_ok_iff.mp h).1

/-- Reports never fail and record nothing. -/
theorem run_reports (ledger : Ledger) (raised : List Diagnostic) :
    ledger.run (raised.map .report) =
      .ok { ledger with log := raised.foldl Diagnostic.record ledger.log } := by
  induction raised generalizing ledger with
  | nil => rfl
  | cons diagnostic rest ih =>
      exact ih { ledger with log := Diagnostic.record ledger.log diagnostic }

/-- Migrating a file carries out its plan on an empty ledger. -/
theorem carryOut_eq_run (source : Source) (plan : Plan) :
    Migration.carryOut source plan = (run ⟨{ source }, []⟩ plan).map fun ledger =>
      ⟨ledger.changes.render, ledger.changes.render != source.text,
        ledger.log.mergeSort Diagnostic.precedes⟩ := by
  rw [run_eq, Migration.carryOut]
  cases ChangeSet.applyAll { source } plan.changes with
  | error conflict => rfl
  | ok changes => rfl

end Ledger

/-! ## Members that are converted -/

/-- Just two methods need a completion callback. -/
theorem Rule.usesCompletion_iff {method : String} {rule : Rule} (h : Rule.find? method = some rule) :
    rule.target.usesCompletion = true ↔ method = "end" ∨ method = "fail" := by
  have hall : ∀ rule ∈ Rule.all,
      (rule.target.usesCompletion = true ↔ rule.method = "end" ∨ rule.method = "fail") := by
    decide +kernel
  rw [← Rule.method_of_find? h]
  exact hall rule (List.mem_of_find?_eq_some h)

namespace Context

theorem callWithArguments?_eq_some_iff {node call : Node} :
    callWithArguments? node = some call ↔
      node.callOf? = some call ∧ call.arguments?.isSome = true := by
  constructor
  · exact callOf?_of_callWithArguments?
  · rintro ⟨hcall, harguments⟩
    simp only [callWithArguments?, hcall, harguments, if_true]

namespace Member

variable {table : ScopeTable} {source : Source} {body : Node}

/-- The references to the name that the member is bound to. -/
def references (table : ScopeTable) (source : Source) (body : Node) (member : Member) : List Node :=
  match table.declaredAt? member.binder with
  | some binding => table.references source body binding
  | none => []

/-- Does the member stand for the completion callback, or for its `fail`? -/
def completes (member : Member) : Bool :=
  member.method == "end" || member.method == "fail"

theorem completes_iff {member : Member} :
    member.completes = true ↔ member.method = "end" ∨ member.method = "fail" := by
  simp [completes]

/-- The reference is the callee of a call with an argument list, or the member is `end` or `fail`. -/
def Supports (member : Member) (reference : Node) : Prop :=
  (∃ call, reference.callOf? = some call ∧ call.arguments?.isSome = true) ∨
    member.completes = true

/-- What is done at a reference of a member: a call is converted by the rule, and any other use is
given the name of the completion callback, or of its `fail`. -/
def handOver (source : Source) (rule : Rule) (reference : Node) : Plan :=
  match callWithArguments? reference with
  | some call => Assertion.plan source ⟨call, reference, contextName, rule⟩ completionName
  | none =>
    renameReference source reference
      (if rule.method = "end" then completionName else completionName ++ ".fail")

/-- What is done at all references of a member. -/
def conversion (table : ScopeTable) (source : Source) (body : Node) (member : Member) : Plan :=
  match Rule.find? member.method with
  | some rule => (member.references table source body).flatMap (handOver source rule)
  | none => []

/-- There is something to do at every reference that is supported, and only there. -/
theorem classify?_eq_none_iff {member : Member} {rule : Rule} {reference : Node}
    (hrule : Rule.find? member.method = some rule) :
    MemberUse.classify? rule reference = none ↔ ¬ member.Supports reference := by
  have htargets := Rule.usesCompletion_iff hrule
  rw [← completes_iff] at htargets
  unfold MemberUse.classify? Supports
  cases hcall : callWithArguments? reference with
  | some call =>
      have hcallee := callWithArguments?_eq_some_iff.mp hcall
      exact ⟨fun h => absurd h (by simp), fun h => absurd (.inl ⟨call, hcallee⟩) h⟩
  | none =>
      have hnone : ¬ ∃ call, reference.callOf? = some call ∧ call.arguments?.isSome = true := by
        rintro ⟨call, hcallee⟩
        rw [callWithArguments?_eq_some_iff.mpr hcallee] at hcall
        exact absurd hcall (by simp)
      rw [or_iff_right hnone, ← htargets]
      cases rule.target <;> simp [Target.usesCompletion]

theorem plan_of_classify? {method : String} {rule : Rule} {reference : Node} {use : MemberUse}
    (hrule : Rule.find? method = some rule) (h : MemberUse.classify? rule reference = some use) :
    use.plan source = handOver source rule reference := by
  obtain ⟨hfail, hend⟩ := Rule.method_of_target hrule
  rw [← Rule.method_of_find? hrule] at hfail hend
  unfold MemberUse.classify? at h
  unfold handOver
  cases hcall : callWithArguments? reference with
  | some call =>
      rw [hcall] at h
      cases h
      rfl
  | none =>
      simp only [hcall] at h
      split at h
      · rename_i htarget
        cases h
        simp only [hend htarget, if_true]
        rfl
      · rename_i htarget
        cases h
        rw [if_neg (by rw [hfail htarget]; decide)]
        rfl
      · exact absurd h (by simp)

theorem flatMap_plan {method : String} {rule : Rule} {references : List Node}
    {uses : List MemberUse} (hrule : Rule.find? method = some rule)
    (h : List.Forall₂ (fun reference use => MemberUse.classify? rule reference = some use)
      references uses) :
    uses.flatMap (MemberUse.plan source) = references.flatMap (handOver source rule) := by
  induction h with
  | nil => rfl
  | cons hhead _ ih =>
      rw [List.flatMap_cons, List.flatMap_cons, plan_of_classify? hrule hhead, ih]

theorem plan_of_converted {member : Member} {entry : Rule × List MemberUse} {binding : BindingId}
    (h : Converted table source body member entry binding) :
    entry.2.flatMap (MemberUse.plan source) = member.conversion table source body := by
  simp only [conversion, references, h.found, h.declared]
  exact flatMap_plan h.found h.supported

/-- The steps for all members, and whether one of them stands for the completion callback. -/
theorem plan_of_usesAll {members : List Member} {all : List (Rule × List MemberUse)}
    (h : usesAll table source body members = .ok all) :
    (all.flatMap fun entry => entry.2.flatMap (MemberUse.plan source)) =
        members.flatMap (conversion table source body) ∧
      (all.any fun entry => entry.1.target.usesCompletion) = members.any completes := by
  have hconverted := forall₂_of_usesAll h
  clear h
  induction hconverted with
  | nil => exact ⟨rfl, rfl⟩
  | @cons member entry _ _ hhead _ ih =>
      obtain ⟨binding, hhead⟩ := hhead
      have htarget : entry.1.target.usesCompletion = member.completes := by
        rw [Bool.eq_iff_iff, Rule.usesCompletion_iff hhead.found, completes_iff]
      rw [List.flatMap_cons, List.flatMap_cons, plan_of_converted hhead, ih.1, List.any_cons,
        List.any_cons, ih.2, htarget]
      exact ⟨rfl, rfl⟩

end Member

end Context

namespace Callback

open Context

variable {table : ScopeTable} {source : Source} {callback first pattern body : Node}
  {members : List Member} {completion : Bool}

/-- All elements of the pattern are members, each with a rule and a declared name, and every
reference to such a name in the body is supported. -/
structure Convertible (table : ScopeTable) (source : Source) (callback pattern body : Node)
    (members : List Member) : Prop where
  child : callback.child? .body = some body
  read : Member.ofPattern? source pattern = some members
  ruled : ∀ member ∈ members, (Rule.find? member.method).isSome
  declared : ∀ member ∈ members, (table.declaredAt? member.binder).isSome
  supported : ∀ member ∈ members, ∀ reference ∈ member.references table source body,
    member.Supports reference

/-- Why a context that is taken apart is left as it is, and what is said about it. -/
inductive Refused (table : ScopeTable) (source : Source) (callback pattern : Node) :
    Option Diagnostic → Prop
  | body : callback.child? .body = none → Refused table source callback pattern none
  | element {element : Node} : element ∈ pattern.namedChildren →
      Member.ofElement? source element = none → Refused table source callback pattern
        (some (.ofNode source pattern Finding.unsupportedPattern.message))
  | method {members : List Member} {member : Member} :
      Member.ofPattern? source pattern = some members → member ∈ members →
      Rule.find? member.method = none → Refused table source callback pattern
        (some (.ofNode source member.binder
          (Finding.unsupportedMember contextName member.method).message))
  | undeclared {members : List Member} {member : Member} :
      Member.ofPattern? source pattern = some members → member ∈ members →
      table.declaredAt? member.binder = none → Refused table source callback pattern none
  | value {body reference : Node} {members : List Member} {member : Member} :
      callback.child? .body = some body → Member.ofPattern? source pattern = some members →
      member ∈ members → (Rule.find? member.method).isSome →
      reference ∈ member.references table source body → ¬ member.Supports reference →
      Refused table source callback pattern
        (some (.ofNode source reference (Finding.indirectUse contextName member.method).message))

theorem Refused.not_convertible {raised? : Option Diagnostic}
    (h : Refused table source callback pattern raised?) (body : Node) (members : List Member) :
    ¬ Convertible table source callback pattern body members := by
  intro hconvertible
  have hread := hconvertible.read
  cases h with
  | body hnone =>
      rw [hconvertible.child] at hnone
      exact absurd hnone (by simp)
  | element helement hnone =>
      obtain ⟨member, _, hmember⟩ := exists_right_of_forall₂ (forall₂_of_mapM hread) helement
      rw [hnone] at hmember
      exact absurd hmember (by simp)
  | method hmembers hmember hnone =>
      rw [hread] at hmembers
      cases hmembers
      exact absurd (hconvertible.ruled _ hmember) (by simp [hnone])
  | undeclared hmembers hmember hnone =>
      rw [hread] at hmembers
      cases hmembers
      exact absurd (hconvertible.declared _ hmember) (by simp [hnone])
  | value hbody hmembers hmember _ href hnot =>
      rw [hread] at hmembers
      cases hmembers
      rw [hconvertible.child] at hbody
      cases hbody
      exact hnot (hconvertible.supported _ hmember _ href)

/-- What is done about the parameter when the members are converted. -/
def parameterPlan (source : Source) (callback first : Node) (completion : Bool)
    (members : List Member) : Plan :=
  if completion || members.any Member.completes then Plan.replace first completionName
  else removeParameter source callback

/-- An obstacle of a member is a reason for refusal, and its plan reports one thing at most. -/
theorem refused_of_obstacle {member : Member} {plan : Plan}
    (hbody : callback.child? .body = some body)
    (hmembers : Member.ofPattern? source pattern = some members) (hmember : member ∈ members)
    (h : Member.Obstacle table source body member plan) :
    ∃ raised?, Refused table source callback pattern raised? ∧
      plan = raised?.toList.map .report := by
  cases h with
  | method hnone => exact ⟨_, .method hmembers hmember hnone, rfl⟩
  | undeclared hnone => exact ⟨_, .undeclared hmembers hmember hnone, rfl⟩
  | @value rule binding reference hrule hbinding href hnone =>
      have href : reference ∈ member.references table source body := by
        simpa only [Member.references, hbinding] using href
      refine ⟨_, .value hbody hmembers hmember (by simp [hrule]) href
        ((Member.classify?_eq_none_iff hrule).mp hnone), ?_⟩
      rw [Rule.method_of_find? hrule]
      rfl

theorem convertible_of_usesAll {all : List (Rule × List MemberUse)}
    (hbody : callback.child? .body = some body)
    (hmembers : Member.ofPattern? source pattern = some members)
    (hall : Member.usesAll table source body members = .ok all) :
    Convertible table source callback pattern body members := by
  have hconverted : ∀ member ∈ members, ∃ entry binding,
      Member.Converted table source body member entry binding := by
    intro member hmember
    obtain ⟨entry, _, binding, h⟩ :=
      exists_right_of_forall₂ (Member.forall₂_of_usesAll hall) hmember
    exact ⟨entry, binding, h⟩
  refine ⟨hbody, hmembers, ?_, ?_, ?_⟩
  · intro member hmember
    obtain ⟨entry, binding, h⟩ := hconverted member hmember
    simp [h.found]
  · intro member hmember
    obtain ⟨entry, binding, h⟩ := hconverted member hmember
    simp [h.declared]
  · intro member hmember reference href
    obtain ⟨entry, binding, h⟩ := hconverted member hmember
    simp only [Member.references, h.declared] at href
    obtain ⟨use, _, hclass⟩ := exists_right_of_forall₂ h.supported href
    by_contra hnot
    rw [(Member.classify?_eq_none_iff h.found).mpr hnot] at hclass
    exact absurd hclass (by simp)

theorem Convertible.exists_usesAll (h : Convertible table source callback pattern body members) :
    ∃ all, Member.usesAll table source body members = .ok all := by
  cases hall : Member.usesAll table source body members with
  | ok all => exact ⟨all, rfl⟩
  | error plan =>
      obtain ⟨member, hmember, hobstacle⟩ := Member.exists_obstacle hall
      obtain ⟨_, hrefused, _⟩ := refused_of_obstacle h.child h.read hmember hobstacle
      exact absurd h (hrefused.not_convertible body members)

/-- The plan for a context that is taken apart reports one thing at most, or goes through all
references of all members and then to the parameter. -/
theorem destructuredPlan_cases (table : ScopeTable) (source : Source)
    (callback first pattern : Node) (completion : Bool) :
    (∃ raised?, Refused table source callback pattern raised? ∧
      destructuredPlan table source callback first pattern completion =
        raised?.toList.map .report) ∨
    ∃ body members, Convertible table source callback pattern body members ∧
      destructuredPlan table source callback first pattern completion =
        members.flatMap (Member.conversion table source body) ++
          parameterPlan source callback first completion members := by
  unfold destructuredPlan
  split
  · exact .inl ⟨none, .body ‹_›, rfl⟩
  · rename_i body hbody
    split
    · rename_i hnone
      obtain ⟨element, helement, hread⟩ := exists_of_mapM_eq_none hnone
      exact .inl ⟨_, .element helement hread, rfl⟩
    · rename_i members hmembers
      split
      · rename_i plan herror
        obtain ⟨member, hmember, hobstacle⟩ := Member.exists_obstacle herror
        exact .inl (refused_of_obstacle hbody hmembers hmember hobstacle)
      · rename_i all hall
        obtain ⟨hsteps, hcompletes⟩ := Member.plan_of_usesAll hall
        refine .inr ⟨body, members, convertible_of_usesAll hbody hmembers hall, ?_⟩
        rw [hsteps, hcompletes]
        rfl

/-- A context that is taken apart is converted as a whole or not at all, whatever has been recorded
and reported before.  If something is in the way, nothing is recorded and one thing is reported at
most: an element that is not understood, a member without a rule, or a use that is no call.  Else,
if the edits can be recorded, every reference of every member is dealt with, and what is asked for
there is recorded, before the parameter is. -/
theorem members_all_or_nothing (table : ScopeTable) (source : Source) (callback first : Node)
    (rest : List Node) (completion : Bool) (before : Ledger)
    (hparameters : callback.parameters = first :: rest)
    (hkind : (patternOf first).kind = .objectPattern) :
    ((∀ body members, ¬ Convertible table source callback (patternOf first) body members) ∧
      ∃ raised?, Refused table source callback (patternOf first) raised? ∧
        before.run (plan table source callback completion) =
          .ok { before with log := raised?.toList.foldl Diagnostic.record before.log }) ∨
    ∃ body members, Convertible table source callback (patternOf first) body members ∧
      ∀ after, before.run (plan table source callback completion) = .ok after →
        ∃ middle,
          before.run (members.flatMap (Member.conversion table source body)) = .ok middle ∧
          (∀ member ∈ members, ∀ rule, Rule.find? member.method = some rule →
            ∀ reference ∈ member.references table source body,
            ∀ change ∈ (Member.handOver source rule reference).changes,
            ∀ edit, change.edit? before.changes.source = some edit →
              ∃ recorded ∈ middle.changes.edits, recorded.span = edit.span) ∧
          middle.run (parameterPlan source callback first completion members) = .ok after := by
  have hplan : plan table source callback completion =
      destructuredPlan table source callback first (patternOf first) completion := by
    simp only [plan, hparameters, hkind]
  rcases destructuredPlan_cases table source callback first (patternOf first) completion with
    ⟨raised?, hrefused, hreport⟩ | ⟨body, members, hconvertible, hsteps⟩
  · refine .inl ⟨hrefused.not_convertible, raised?, hrefused, ?_⟩
    rw [hplan, hreport, Ledger.run_reports]
  · refine .inr ⟨body, members, hconvertible, ?_⟩
    intro after hafter
    rw [hplan, hsteps, Ledger.run_append] at hafter
    cases hmiddle : before.run (members.flatMap (Member.conversion table source body)) with
    | error conflict =>
        rw [hmiddle] at hafter
        exact absurd hafter (by simp [Except.bind])
    | ok middle =>
        rw [hmiddle] at hafter
        refine ⟨middle, rfl, ?_, hafter⟩
        intro member hmember rule hrule reference href change hchange edit hedit
        refine (Ledger.recorded_run hmiddle).covered change ?_ edit hedit
        rw [Plan.changes_flatMap]
        refine List.mem_flatMap.mpr ⟨member, hmember, ?_⟩
        simp only [Member.conversion, hrule, Plan.changes_flatMap]
        exact List.mem_flatMap.mpr ⟨reference, href, hchange⟩

end Callback

namespace Sample

/-- A function that takes its only parameter apart, with a block for its body. -/
def taking (start close stop : Nat) (elements statements : List Tree) : Tree :=
  node .arrowFunction start stop none
    [ node (.other "formal_parameters") start close (some .parameters)
        [ token "(" start (start + 1),
          node .objectPattern (start + 1) (close - 1) none
            (token "\x7b" (start + 1) (start + 2) :: elements ++
              [token "\x7d" (close - 2) (close - 1)]),
          token ")" (close - 1) close ],
      token "=>" (close + 1) (close + 3),
      node .statementBlock (close + 4) stop (some .body)
        (token "\x7b" (close + 4) (close + 5) :: statements ++ [token "\x7d" (stop - 1) stop]) ]

end Sample

namespace Apart

open Sample (node token name quoted statement taking)

/-- A test with two members, one of them called with too few arguments, the other handed on. -/
def source : Source where
  text := "import test from 'ava';\ntest((\x7bis: same, end\x7d) => \x7b\n" ++
    "  same(1);\n  f(end);\n\x7d);\n"

/-- The tree of the file. -/
def tree : Tree :=
  node .program 0 77 none
    [ node .importStatement 0 23 none
        [ token "import" 0 6, node .importClause 7 11 none [name 7 11 none], token "from" 12 16,
          quoted 17 22 (some .source), token ";" 22 23 ],
      statement 24 76 (name 24 28 (some .function))
        [ taking 29 46 74
            [ node .pairPattern 31 39 none
                [ node .propertyIdentifier 31 33 (some .key) [], token ":" 33 34,
                  name 35 39 (some .value) ],
              token "," 39 40, node .shorthandPattern 41 44 none [] ]
            [ statement 54 62 (name 54 58 (some .function)) [node (.other "number") 59 60 none []],
              statement 65 72 (name 65 66 (some .function)) [name 67 70 none] ] ] ]

/-- The import has been taken out before, and something about the file has been said. -/
def before : Ledger :=
  ⟨{ source, edits := [.delete ⟨0, 24⟩] }, [.ofFile "checked"]⟩

end Apart

namespace Callback

open Context Node

theorem members_all_or_nothing_apart :
    ∃ callback first rest body members middle after,
      callback.parameters = first :: rest ∧ (patternOf first).kind = .objectPattern ∧
      Convertible (ScopeTable.build Apart.source Apart.tree) Apart.source callback (patternOf first)
        body members ∧
      Apart.before.run (members.flatMap (Member.conversion
        (ScopeTable.build Apart.source Apart.tree) Apart.source body)) = .ok middle ∧
      middle.run (parameterPlan Apart.source callback first false members) = .ok after ∧
      after.changes.size = 4 ∧ after.log.length = 2 := by
  have hfound : ((root Apart.tree).nodes.any fun callback =>
      callback.parameters.head?.any fun first => (patternOf first).kind == .objectPattern &&
        (Apart.before.run (plan (ScopeTable.build Apart.source Apart.tree) Apart.source callback
          false)).toOption.any fun after =>
            after.changes.size == 4 && after.log.length == 2) = true := by
    decide +kernel
  simp only [List.any_eq_true, Bool.and_eq_true, Option.any_eq_true, beq_iff_eq] at hfound
  obtain ⟨callback, _, first, hfirst, hkind, after, hafter, hsize, hlog⟩ := hfound
  obtain ⟨rest, hparameters⟩ := List.head?_eq_some_iff.mp hfirst
  have hrun : Apart.before.run (plan (ScopeTable.build Apart.source Apart.tree) Apart.source
      callback false) = .ok after := toOption_eq_some.mp hafter
  rcases members_all_or_nothing (ScopeTable.build Apart.source Apart.tree) Apart.source callback
    first rest false Apart.before hparameters hkind with
    ⟨_, raised?, _, hreports⟩ | ⟨body, members, hconvertible, hsteps⟩
  · -- Three edits have been added, so it was not left as it is.
    rw [hreports] at hrun
    cases hrun
    have hsize : Apart.before.changes.size = 4 := hsize
    exact absurd hsize (by decide)
  · obtain ⟨middle, hmiddle, _, hlast⟩ := hsteps after hrun
    exact ⟨callback, first, rest, body, members, middle, after, hparameters, hkind, hconvertible,
      hmiddle, hlast, hsize, hlog⟩

end Callback

end JestMigration
