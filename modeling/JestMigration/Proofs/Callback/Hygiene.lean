/-
# `Proofs.Callback.Hygiene` — whether a written `done` is the completion callback

A callback that takes a completion callback has its context parameter renamed to
`done`, and the references to the context in its body become `done` as well.
The names in use are not looked at.  So a reference below another `done` is
captured by it, whether that was there before or is the parameter of a callback
further in that takes a completion callback too.  Everywhere else the written
name means the renamed parameter (`MeansParameter`).

`Hygienic` is the condition on the names that were there, in terms of scopes:
from that of the reference out to that of the callback none has a `done`.
`hygienic_iff` says it in terms of the nodes between.
-/
import JestMigration.Proofs.Callback.Extent
import JestMigration.Proofs.Scope.Binders
import JestMigration.Proofs.Scope.Capture

namespace JestMigration

open Node ScopeTable

/-! ## References that become the completion callback -/

namespace Context

/-- A change that puts the completion callback in the place of a reference, or of what begins with
it. -/
inductive Completed (source : Source) (reference : Node) : Change → Prop
  | renamed : Completed source reference (Context.rename source reference completionName)
  | replaced {node : Node} : Head reference node →
      Completed source reference (.replace node.span completionName)
  | failed {node : Node} : Head reference node →
      Completed source reference (.replace node.span (completionName ++ ".fail"))

namespace Use

/-- Does the use put the completion callback in the place of the reference, if there is one? -/
def writesCompletion : Use → Bool
  | .assertion _ _ rule => rule.target.usesCompletion
  | .contextCall _ => false
  | _ => true

theorem exists_completed {source : Source} {reference : Node} (context : String)
    (h : (classify source reference).writesCompletion = true) :
    ∃ change, (classify source reference).change? source context true reference = some change ∧
      Completed source reference change := by
  have hclass := classified source reference
  generalize classify source reference = use at h hclass
  cases hclass with
  | @assertion member call name rule hmember _ _ _ =>
      have hhead : Head reference member := .step .self (.inl hmember)
      have htarget : rule.target = .completionFail ∨ rule.target = .completionEnd := by
        rw [writesCompletion] at h
        cases htarget : rule.target <;> simp_all [Target.usesCompletion]
      refine ⟨_, rfl, ?_⟩
      rcases htarget with htarget | htarget
      · simp only [Assertion.change, htarget]
        exact .failed hhead
      · simp only [Assertion.change, htarget]
        exact .replaced hhead
  | endValue hmember _ _ => exact ⟨_, rfl, .replaced (.step .self (.inl hmember))⟩
  | failValue => exact ⟨_, rfl, .replaced .self⟩
  | contextCall => exact absurd h (by simp [writesCompletion])
  | unmapped | contextAccess | property | whole => exact ⟨_, rfl, .renamed⟩

end Use

end Context

/-! ## Scopes -/

namespace Callback

open Context

variable {source : Source} {tree : Tree} {callback first body reference name : Node}
  {binding : BindingId} {own : ScopeId}

/-- The scope of a name that is referred to in the body is that of the callback. -/
theorem openedAt?_of_reference (hcallback : IsArgument tree callback)
    (hfirst : first ∈ callback.parameters) (hbody : callback.child? .body = some body)
    (hname : Within first name) (hdeclared : (build source tree).declaredAt? name = some binding)
    (href : reference ∈ (build source tree).references source body binding) :
    ∃ own, (build source tree).openedAt? callback = some own ∧
      (build source tree).bindings[binding]? = some ⟨name.text source, own⟩ := by
  have hsound := sound_build source tree
  obtain ⟨child, hchild, hin⟩ := exists_of_mem_parameters hfirst
  have hchildmem := mem_children_of_parameter hchild
  have hbelow : Within child name := hin.trans hname
  obtain ⟨mid, own, hmid, hdown, hopen, hentry⟩ :=
    hcallback.exists_opener ((Within.of_mem_children hchildmem).trans hbelow) hdeclared
  obtain ⟨_, _, hinbody, _, _, _, hresolve⟩ := mem_references_iff.mp href
  have hbodymem := mem_children_of_child? hbody
  have htop := (hcallback.within.child hbodymem).trans hinbody
  -- The scope is opened around the reference too.
  have haround : Within mid reference := by
    rw [resolve?, hsound.lookup?_eq htop] at hresolve
    obtain ⟨id, hid, hfound⟩ := List.exists_of_findSome?_eq_some hresolve
    obtain ⟨scope, hscope, hbound⟩ := Option.bind_eq_some_iff.mp hfound
    obtain ⟨above, habove, hover, rfl⟩ := (mem_lineage_iff htop).mp hid
    have hsame := (hsound.names.mp hbound).symm.trans hentry
    have hscopes : scope = own := congrArg Binding.scope (Option.some.inj hsame)
    rw [hscopes] at hscope
    exact habove.eq_of_id (hcallback.within.trans hmid) (hsound.injective hscope hopen) ▸ hover
  -- Only the callback has the parameter and the body below it.
  rcases hmid.head with rfl | ⟨part, hpart, hinpart⟩
  · exact ⟨own, hopen, hentry⟩
  · have hleft := Within.child_unique hpart hchildmem (hinpart.trans hdown) hbelow
    have hright := Within.child_unique hpart hbodymem (hinpart.trans haround) hinbody
    exact absurd (hleft.symm.trans hright) (parameter_ne_body hchild hbody)

/-- No `done` is bound in the scope of the callback, nor in one between it and the reference. -/
def Hygienic (table : ScopeTable) (callback reference : Node) : Prop :=
  ∀ own, table.openedAt? callback = some own → table.boundIn? own completionName = none ∧
    ∀ scope ∈ table.inside own (table.scopeOf reference),
      table.boundIn? scope completionName = none

/-- From the callback down to the reference no node has `done` in its scope. -/
theorem hygienic_iff_hasName (hcallback : Within (root tree) callback)
    (hin : Within callback reference) (hopen : (build source tree).openedAt? callback = some own) :
    Hygienic (build source tree) callback reference ↔
      ∀ mid, Within callback mid → Within mid reference →
        ¬ (build source tree).HasName mid completionName := by
  obtain ⟨_, _, hinside⟩ := (sound_build source tree).path_split hcallback hin hopen
  constructor
  · rintro h mid hmid hdown ⟨scope, hscope, hbound⟩
    obtain ⟨hown, hbetween⟩ := h own hopen
    by_cases hsame : mid = callback
    · subst hsame
      rw [hopen] at hscope
      cases hscope
      rw [hown] at hbound
      exact absurd hbound (by simp)
    · rw [hbetween scope ((hinside scope).mpr ⟨mid, hmid, hsame, hdown, hscope⟩)] at hbound
      exact absurd hbound (by simp)
  · intro h found hfound
    rw [hopen] at hfound
    cases hfound
    have hfree : ∀ {mid : Node} {scope : ScopeId}, Within callback mid → Within mid reference →
        (build source tree).openedAt? mid = some scope →
        (build source tree).boundIn? scope completionName = none := by
      intro mid scope hmid hdown hscope
      rw [← Option.not_isSome_iff_eq_none]
      exact fun hbound => h mid hmid hdown ⟨scope, hscope, hbound⟩
    refine ⟨hfree .self hin hopen, ?_⟩
    intro scope hscope
    obtain ⟨mid, hmid, _, hdown, hopened⟩ := (hinside scope).mp hscope
    exact hfree hmid hdown hopened

/-- From the callback down to the reference no node binds `done`. -/
theorem hygienic_iff (hcallback : IsArgument tree callback) (hin : Within callback reference)
    (hopen : (build source tree).openedAt? callback = some own)
    (hroot : (root tree).kind ≠ .importStatement) :
    Hygienic (build source tree) callback reference ↔
      ∀ mid name, Within callback mid → Within mid reference → Binds source tree mid name →
        name.text source ≠ completionName := by
  rw [hygienic_iff_hasName hcallback.within hin hopen]
  have hnames : ∀ {mid : Node}, Within callback mid →
      ((build source tree).HasName mid completionName ↔ completionName ≠ "" ∧
        ∃ name, Binds source tree mid name ∧ name.text source = completionName) := by
    intro mid hmid
    refine hasName_iff_binds (hcallback.within.trans hmid) ?_ hroot
    rintro rfl
    exact hcallback.ne_root (hmid.antisymm hcallback.within)
  constructor
  · intro h mid name hmid hdown hbinds htext
    exact h mid hmid hdown ((hnames hmid).mpr ⟨by decide, name, hbinds, htext⟩)
  · intro h mid hmid hdown hhas
    obtain ⟨_, name, hbinds, htext⟩ := (hnames hmid).mp hhas
    exact h mid name hmid hdown hbinds htext

/-! ## The completion callback -/

/-- Written at the reference, `done` is the parameter of the callback and nothing else, where
`added` are the scopes of all callbacks that get a parameter of that name. -/
def MeansParameter (table : ScopeTable) (added : List ScopeId) (callback reference : Node) : Prop :=
  ∃ own, table.openedAt? callback = some own ∧ table.boundIn? own completionName = none ∧
    table.bindingScope? completionName added (table.scopeOf reference) = some own

/-- No `done` may be on the way, neither an old one nor one that is put in. -/
theorem meansParameter_iff (hcallback : Within (root tree) callback)
    (hin : Within callback reference) (hopen : (build source tree).openedAt? callback = some own)
    {added : List ScopeId} (hadded : own ∈ added) :
    MeansParameter (build source tree) added callback reference ↔
      Hygienic (build source tree) callback reference ∧
        ∀ mid scope, Within callback mid → mid ≠ callback → Within mid reference →
          (build source tree).openedAt? mid = some scope → scope ∉ added := by
  have hsound := sound_build source tree
  obtain ⟨_, _, hinside⟩ := hsound.path_split hcallback hin hopen
  constructor
  · rintro ⟨found, hfound, hown, hscope⟩
    rw [hopen] at hfound
    cases hfound
    rw [hsound.bindingScope?_iff hcallback hin hopen hadded] at hscope
    refine ⟨?_, ?_⟩
    · intro other hother
      rw [hopen] at hother
      cases hother
      exact ⟨hown, fun scope hmem => (hscope scope hmem).2⟩
    · intro mid scope hmid hne hdown hopened
      exact (hscope scope ((hinside scope).mpr ⟨mid, hmid, hne, hdown, hopened⟩)).1
  · rintro ⟨hhygienic, hothers⟩
    obtain ⟨hown, hfree⟩ := hhygienic own hopen
    refine ⟨own, hopen, hown, ?_⟩
    rw [hsound.bindingScope?_iff hcallback hin hopen hadded]
    intro scope hscope
    obtain ⟨mid, hmid, hne, hdown, hopened⟩ := (hinside scope).mp hscope
    exact ⟨hothers mid scope hmid hne hdown hopened, hfree scope hscope⟩

/-- The changes for a callback with a named context that takes a completion callback. -/
theorem changes_of_completes {table : ScopeTable} {rest : List Node} {completion : Bool}
    (hparameters : callback.parameters = first :: rest)
    (hkind : (patternOf first).kind = .identifier) (hbody : callback.child? .body = some body)
    (hdeclared : table.declaredAt? (patternOf first) = some binding)
    (hcompletes : completes completion (namedUses table source body binding) = true) :
    (plan table source callback completion).changes =
      ((table.references source body binding).flatMap fun reference =>
        ((Use.classify source reference).change? source ((patternOf first).text source) true
          reference).toList) ++ [.replace first.span completionName] := by
  have hplan : plan table source callback completion =
      namedPlan table source callback first (patternOf first) completion := by
    simp only [plan, hparameters, hkind]
  rw [hplan, changes_namedPlan hdeclared hbody, hcompletes]
  rfl

theorem exists_change_of_writesCompletion {table : ScopeTable} {rest : List Node}
    {completion : Bool} (hparameters : callback.parameters = first :: rest)
    (hkind : (patternOf first).kind = .identifier) (hbody : callback.child? .body = some body)
    (hdeclared : table.declaredAt? (patternOf first) = some binding)
    (hcompletes : completes completion (namedUses table source body binding) = true)
    (href : reference ∈ table.references source body binding)
    (hwrites : (Use.classify source reference).writesCompletion = true) :
    ∃ change ∈ (plan table source callback completion).changes,
      Completed source reference change := by
  obtain ⟨change, hchange, hcompleted⟩ :=
    Use.exists_completed ((patternOf first).text source) hwrites
  refine ⟨change, ?_, hcompleted⟩
  rw [changes_of_completes hparameters hkind hbody hdeclared hcompletes]
  refine List.mem_append_left _ (List.mem_flatMap.mpr ⟨reference, href, ?_⟩)
  rw [hchange]
  exact List.mem_singleton_self change

/-- Where a callback takes a completion callback, its parameter and the references to it become
`done`.  At a reference the name means that parameter just if no node from the callback down to the
reference binds the name, and none further in is a callback that gets it too. -/
theorem completion_means_parameter (source : Source) (tree : Tree)
    (callback first body reference : Node) (rest : List Node) (binding : BindingId)
    (completion : Bool) (hcallback : IsArgument tree callback)
    (hparameters : callback.parameters = first :: rest)
    (hkind : (patternOf first).kind = .identifier) (hbody : callback.child? .body = some body)
    (hdeclared : (build source tree).declaredAt? (patternOf first) = some binding)
    (hcompletes : completes completion (namedUses (build source tree) source body binding) = true)
    (href : reference ∈ (build source tree).references source body binding) :
    .replace first.span completionName ∈
        (plan (build source tree) source callback completion).changes ∧
      ((Use.classify source reference).writesCompletion = true →
        ∃ change ∈ (plan (build source tree) source callback completion).changes,
          Completed source reference change) ∧
      ∃ own, (build source tree).openedAt? callback = some own ∧
        (build source tree).bindings[binding]? = some ⟨(patternOf first).text source, own⟩ ∧
        ((root tree).kind ≠ .importStatement →
          (Hygienic (build source tree) callback reference ↔
            ∀ mid name, Within callback mid → Within mid reference → Binds source tree mid name →
              name.text source ≠ completionName)) ∧
        ∀ added, own ∈ added →
          (MeansParameter (build source tree) added callback reference ↔
            Hygienic (build source tree) callback reference ∧
              ∀ mid scope, Within callback mid → mid ≠ callback → Within mid reference →
                (build source tree).openedAt? mid = some scope → scope ∉ added) := by
  have hfirst : first ∈ callback.parameters := by simp [hparameters]
  obtain ⟨own, hopen, hentry⟩ := openedAt?_of_reference hcallback hfirst hbody
    (within_patternOf first) hdeclared href
  obtain ⟨_, _, hinbody, _⟩ := mem_references_iff.mp href
  have hin := (within_of_child? hbody).trans hinbody
  refine ⟨?_, ?_, own, hopen, hentry, ?_, ?_⟩
  · rw [changes_of_completes hparameters hkind hbody hdeclared hcompletes]
    exact List.mem_append_right _ (List.mem_singleton_self _)
  · exact exists_change_of_writesCompletion hparameters hkind hbody hdeclared hcompletes href
  · exact hygienic_iff hcallback hin hopen
  · intro added hadded
    exact meansParameter_iff hcallback.within hin hopen hadded

/-! ## Two files -/

/-- Is there a callback with a named context, and a reference to it, of which `p` holds? -/
def anyReference (source : Source) (tree : Tree) (p : Node → Node → Bool) : Bool :=
  (root tree).nodes.any fun callback =>
    callback.kind.isCallbackLiteral && (callback.parent?.any fun list => list.kind == .arguments) &&
      callback.parameters.head?.any fun first =>
        (patternOf first).kind == .identifier && (callback.child? .body).any fun body =>
          ((build source tree).declaredAt? (patternOf first)).any fun binding =>
            ((build source tree).references source body binding).any fun reference =>
              p callback reference

theorem exists_of_anyReference {p : Node → Node → Bool} (h : anyReference source tree p = true) :
    ∃ callback first body reference rest binding, IsArgument tree callback ∧
      callback.parameters = first :: rest ∧ (patternOf first).kind = .identifier ∧
      callback.child? .body = some body ∧
      (build source tree).declaredAt? (patternOf first) = some binding ∧
      reference ∈ (build source tree).references source body binding ∧
      p callback reference = true := by
  simp only [anyReference, List.any_eq_true, Bool.and_eq_true, Option.any_eq_true, beq_iff_eq] at h
  obtain ⟨callback, hcallback, ⟨hliteral, list, hlist, harguments⟩, first, hfirst, hkind, body,
    hbody, binding, hdeclared, reference, href, hp⟩ := h
  obtain ⟨rest, hparameters⟩ := List.head?_eq_some_iff.mp hfirst
  have hwithin := mem_nodes_iff.mp hcallback
  exact ⟨callback, first, body, reference, rest, binding,
    ⟨hwithin, hliteral, list, (mem_children_of_parent? hwithin hlist).1, harguments⟩, hparameters,
    hkind, hbody, hdeclared, href, hp⟩

theorem completion_means_parameter_sample :
    ∃ callback first body reference rest binding own,
      (IsArgument Sample.tree callback ∧ callback.parameters = first :: rest ∧
        (patternOf first).kind = .identifier ∧ callback.child? .body = some body ∧
        (build Sample.source Sample.tree).declaredAt? (patternOf first) = some binding ∧
        completes true (namedUses (build Sample.source Sample.tree) Sample.source body binding) =
          true ∧
        reference ∈ (build Sample.source Sample.tree).references Sample.source body binding) ∧
      (∃ change ∈ (plan (build Sample.source Sample.tree) Sample.source callback true).changes,
        Completed Sample.source reference change) ∧
      (build Sample.source Sample.tree).openedAt? callback = some own ∧
      MeansParameter (build Sample.source Sample.tree) [own] callback reference := by
  have hfound : anyReference Sample.source Sample.tree (fun callback reference =>
      (Use.classify Sample.source reference).writesCompletion &&
        ((build Sample.source Sample.tree).openedAt? callback).all fun own =>
          ((build Sample.source Sample.tree).boundIn? own completionName).isNone &&
            ((build Sample.source Sample.tree).inside own
              ((build Sample.source Sample.tree).scopeOf reference)).all fun scope =>
                ((build Sample.source Sample.tree).boundIn? scope completionName).isNone) =
      true := by
    decide +kernel
  obtain ⟨callback, first, body, reference, rest, binding, hargument, hparameters, hkind, hbody,
    hdeclared, href, hp⟩ := exists_of_anyReference hfound
  simp only [Bool.and_eq_true, Option.all_eq_true, List.all_eq_true,
    Option.isNone_iff_eq_none] at hp
  have hcompletes : completes true
      (namedUses (build Sample.source Sample.tree) Sample.source body binding) = true := rfl
  obtain ⟨_, hchange, own, hopen, _, _, hmeans⟩ := completion_means_parameter Sample.source
    Sample.tree callback first body reference rest binding true hargument hparameters hkind hbody
    hdeclared hcompletes href
  refine ⟨callback, first, body, reference, rest, binding, own,
    ⟨hargument, hparameters, hkind, hbody, hdeclared, hcompletes, href⟩, hchange hp.1, hopen,
    (hmeans [own] (List.mem_singleton_self own)).mpr ⟨hp.2, ?_⟩⟩
  intro mid scope hmid hne _ hscope hadded
  rw [List.mem_singleton.mp hadded] at hscope
  exact hne ((hargument.within.trans hmid).eq_of_id hargument.within
    ((sound_build Sample.source Sample.tree).injective hscope hopen))

end Callback

namespace Captured

open Sample (node token name quoted member statement arrow)
open Context Callback

/-- A test with a completion callback, in it a function with a parameter called `done`, and in that
the end of the test. -/
def source : Source where
  text := "import test from 'ava';\ntest.cb(t => \x7b\n" ++
    "  f(done => \x7b\n    t.end();\n  \x7d);\n\x7d);\n"

/-- The tree of the file. -/
def tree : Tree :=
  node .program 0 76 none
    [ node .importStatement 0 23 none
        [ token "import" 0 6, node .importClause 7 11 none [name 7 11 none], token "from" 12 16,
          quoted 17 22 (some .source), token ";" 22 23 ],
      statement 24 75 (member 24 28 31)
        [ arrow 32 73
            [ statement 41 71 (name 41 42 (some .function))
                [ node .arrowFunction 43 69 none
                    [ name 43 47 (some .parameter), token "=>" 48 50,
                      node .statementBlock 51 69 (some .body)
                        [ token "\x7b" 51 52, statement 57 65 (member 57 58 62) [],
                          token "\x7d" 68 69 ] ] ] ] ] ]

/-- The end of the test becomes a call of the parameter of the inner function. -/
theorem not_hygienic :
    ∃ callback first body reference rest binding, IsArgument tree callback ∧
      callback.parameters = first :: rest ∧ (patternOf first).kind = .identifier ∧
      (patternOf first).text source ≠ completionName ∧ callback.child? .body = some body ∧
      (build source tree).declaredAt? (patternOf first) = some binding ∧
      completes true (namedUses (build source tree) source body binding) = true ∧
      reference ∈ (build source tree).references source body binding ∧
      (Use.classify source reference).writesCompletion = true ∧
      (∃ change ∈ (plan (build source tree) source callback true).changes,
        Completed source reference change) ∧
      ¬ Hygienic (build source tree) callback reference ∧
      ∀ own, (build source tree).openedAt? callback = some own →
        ¬ MeansParameter (build source tree) [own] callback reference := by
  have hfound : anyReference source tree (fun callback reference =>
      (callback.parameters.head?.all fun first =>
          (patternOf first).text source != completionName) &&
        (Use.classify source reference).writesCompletion &&
        ((build source tree).openedAt? callback).any fun own =>
          ((build source tree).inside own ((build source tree).scopeOf reference)).any fun scope =>
            ((build source tree).boundIn? scope completionName).isSome) = true := by
    decide +kernel
  obtain ⟨callback, first, body, reference, rest, binding, hargument, hparameters, hkind, hbody,
    hdeclared, href, hp⟩ := exists_of_anyReference hfound
  simp only [hparameters, List.head?_cons, Option.all_some, Bool.and_eq_true, bne_iff_ne,
    Option.any_eq_true, List.any_eq_true] at hp
  obtain ⟨⟨htext, hwrites⟩, own, hopen, scope, hscope, hbound⟩ := hp
  have hcaptured : ¬ Hygienic (build source tree) callback reference := by
    intro hhygienic
    rw [(hhygienic own hopen).2 scope hscope] at hbound
    exact absurd hbound (by simp)
  obtain ⟨_, _, hinbody, _⟩ := mem_references_iff.mp href
  refine ⟨callback, first, body, reference, rest, binding, hargument, hparameters, hkind, htext,
    hbody, hdeclared, rfl, href, hwrites,
    exists_change_of_writesCompletion hparameters hkind hbody hdeclared rfl href hwrites, hcaptured,
    ?_⟩
  intro found hfound hmeans
  exact hcaptured ((meansParameter_iff hargument.within ((within_of_child? hbody).trans hinbody)
    hfound (List.mem_singleton_self found)).mp hmeans).1

end Captured

end JestMigration
