/-
# `Proofs.Callback.Completion` — when the parameter becomes the completion callback

A callback that is not registered as one with a completion callback becomes one
if the context's `end` or `fail` is used.  For a named context that is read off
the references in the body: the member is used where it is called and where it
is handed on (`needsCompletion_iff`).  For a context that is taken apart it is
read off the pattern: a member `end` or `fail` counts, whether there is a
reference to it or not (`renamed_iff_of_named`, `renamed_iff_of_members`).  So
the two forms agree only if such a member is used somewhere or there is none,
and a member that is never used leaves a parameter that nobody calls.
-/
import JestMigration.Proofs.Callback.Members
import JestMigration.Proofs.Migration.Sites

namespace JestMigration

open Node

namespace Context

/-! ## Uses that complete -/

/-- The member `end` or `fail` of the context is used at the reference. -/
def CompletesAt (source : Source) (reference : Node) : Prop :=
  ∃ member name, reference.memberOf? = some member ∧ member.propertyName? source = some name ∧
    (name = "end" ∨ name = "fail")

namespace Use

variable {source : Source} {reference member : Node} {name : String}

theorem needsCompletion_ofValue :
    (ofValue member name).needsCompletion = true ↔ name = "end" ∨ name = "fail" := by
  unfold ofValue
  split
  · rename_i hend
    exact ⟨fun _ => .inl hend, fun _ => rfl⟩
  · rename_i hend
    split
    · rename_i hfail
      exact ⟨fun _ => .inr hfail, fun _ => rfl⟩
    · rename_i hfail
      refine ⟨fun h => ?_, fun h => absurd h (not_or.mpr ⟨hend, hfail⟩)⟩
      split at h
      · split at h
        · exact absurd h Bool.false_ne_true
        · exact absurd h Bool.false_ne_true
      · exact absurd h Bool.false_ne_true

theorem needsCompletion_classify (hmember : reference.memberOf? = some member)
    (hname : member.propertyName? source = some name) :
    (classify source reference).needsCompletion = true ↔ name = "end" ∨ name = "fail" := by
  simp only [classify, hmember, hname]
  cases callWithArguments? member with
  | none => exact needsCompletion_ofValue
  | some call =>
      cases hrule : Rule.find? name with
      | some rule => exact Rule.usesCompletion_iff hrule
      | none =>
          -- There are rules for both methods.
          refine ⟨fun h => absurd h Bool.false_ne_true, ?_⟩
          rintro (rfl | rfl)
          · exact absurd hrule (by decide +kernel)
          · exact absurd hrule (by decide +kernel)

/-- A completion callback is needed where `end` or `fail` is used, be it called or handed on. -/
theorem needsCompletion_iff :
    (classify source reference).needsCompletion = true ↔ CompletesAt source reference := by
  constructor
  · intro h
    cases hmember : reference.memberOf? with
    | none =>
        simp only [classify, hmember] at h
        exact absurd h Bool.false_ne_true
    | some member =>
        cases hname : member.propertyName? source with
        | none =>
            simp only [classify, hmember, hname] at h
            exact absurd h Bool.false_ne_true
        | some name =>
            exact ⟨member, name, hmember, hname, (needsCompletion_classify hmember hname).mp h⟩
  · rintro ⟨member, name, hmember, hname, hcompletes⟩
    exact (needsCompletion_classify hmember hname).mpr hcompletes

end Use

/-- The method of a member stands in its element. -/
theorem Member.exists_method {source : Source} {element : Node} {member : Member}
    (h : ofElement? source element = some member) :
    ∃ node, Within element node ∧ node.text source = member.method := by
  unfold ofElement? at h
  split at h
  · cases h
    exact ⟨element, .self, rfl⟩
  · split at h
    · rename_i key value hkey _
      split at h
      · cases h
        exact ⟨key, within_of_child? hkey, rfl⟩
      · exact absurd h (by simp)
    · exact absurd h (by simp)
  · exact absurd h (by simp)

end Context

namespace Callback

open Context

variable {source : Source} {tree : Tree} {callback first body : Node} {completion : Bool}
  {changes : ChangeSet} {binding : BindingId} {members : List Member}

theorem completes_iff {table : ScopeTable} :
    completes false (namedUses table source body binding) = true ↔
      ∃ reference ∈ table.references source body binding, CompletesAt source reference := by
  rw [completes, Bool.false_or, List.any_eq_true]
  constructor
  · rintro ⟨use, huse, hneeds⟩
    obtain ⟨reference, href, rfl⟩ := List.mem_map.mp huse
    exact ⟨reference, href, Use.needsCompletion_iff.mp hneeds⟩
  · rintro ⟨reference, href, hcompletes⟩
    exact ⟨_, List.mem_map.mpr ⟨reference, href, rfl⟩, Use.needsCompletion_iff.mpr hcompletes⟩

/-! ## The parameter and its new name -/

/-- A parameter whose name is not that of the completion callback does not have its text. -/
theorem slice?_ne_of_named (hnest : tree.WellNested source) (hlex : tree.Lexical source)
    (hfirst : Within (root tree) first) (hkind : (patternOf first).kind = .identifier)
    (htext : (patternOf first).text source ≠ "")
    (hne : (patternOf first).text source ≠ completionName) :
    source.slice? first.span ≠ some completionName := by
  intro hslice
  have hmention : Mention source tree (patternOf first) :=
    ⟨hfirst.trans (within_patternOf first), by rw [hkind]; rfl, htext⟩
  have hspan := Source.eq_of_isWord hslice (by decide +kernel)
    (hnest.contains hfirst (within_patternOf first)) (hmention.isWord hlex) hmention.start_lt_stop
  have hsame := hmention.slice?_eq
  rw [hspan, hslice] at hsame
  exact hne (Option.some.inj hsame).symm

/-- Neither `end` nor `fail` is in the text of the completion callback. -/
theorem slice?_ne_of_member (hnest : tree.WellNested source) (hfirst : Within (root tree) first)
    (hmembers : Member.ofPattern? source (patternOf first) = some members) {member : Member}
    (hmember : member ∈ members) (hcompletes : member.completes = true) :
    source.slice? first.span ≠ some completionName := by
  intro hslice
  obtain ⟨element, helement, hread⟩ := exists_element hmembers hmember
  obtain ⟨node, hnode, htext⟩ := Member.exists_method hread
  have hbelow : Within first node := ((within_patternOf first).trans
    (.of_mem_children (mem_children_of_mem_namedChildren helement))).trans hnode
  have hmethod : member.method ∈ ["end", "fail"] := by
    simpa using Member.completes_iff.mp hcompletes
  have hne : node.text source ≠ "" := by
    intro hempty
    rw [← htext, hempty] at hmethod
    exact absurd hmethod (by decide)
  obtain ⟨i, hi, j, hj, hcut⟩ := Source.exists_cut_of_slice? hslice (Source.slice?_of_read_ne hne)
    (hnest.contains hfirst hbelow)
  have hparts : ∀ i ≤ (Source.mk completionName).size, ∀ j ≤ (Source.mk completionName).size,
      ∀ method ∈ ["end", "fail"],
        (Source.mk completionName).cut ⟨i, j⟩ ≠ (Source.mk method).bytes := by
    decide +kernel
  exact hparts i hi j hj member.method hmethod
    (hcut.trans (congrArg (fun text => (Source.mk text).bytes) htext))

namespace Conversion

/-- What is asked for in the body is not about the parameter. -/
theorem span_ne (h : Conversion source tree callback first body completion changes)
    (hlt : first.span.start < first.span.stop) {reference : Node} {change : Change} {edit : Edit}
    (href : Within body reference) (hrequest : Request reference change)
    (hedit : change.edit? source = some edit) : edit.span ≠ first.span := by
  intro hspan
  have hasked : ∀ other ∈ [change], ∃ reference, Within body reference ∧ Request reference other := by
    intro other hother
    rw [List.mem_singleton.mp hother]
    exact ⟨reference, href, hrequest⟩
  have hnone : change ∈ [] := h.mem_tail hlt hasked (List.mem_append_left _ List.mem_cons_self)
    hedit (by rw [hspan]; exact Span.contains_self _)
  exact absurd hnone List.not_mem_nil

/-- The parameter has been renamed just if the plan ends with that. -/
theorem renamed_iff (h : Conversion source tree callback first body completion changes)
    {asked other : List Change} {ends : Bool}
    (hplan : (plan (ScopeTable.build source tree) source callback completion).changes =
      asked ++ if ends then [.replace first.span completionName] else other)
    (hasked : ∀ change ∈ asked, ∀ edit, change.edit? source = some edit → edit.span ≠ first.span)
    (hother : ∀ change ∈ other, change.edit? source ≠ some (.replace first.span completionName))
    (htext : ends = true → source.slice? first.span ≠ some completionName) :
    Edit.replace first.span completionName ∈ changes.edits ↔ ends = true :=
  ChangeSet.replace_mem_applyAll_iff (hplan ▸ h.run) hasked hother htext

theorem edit?_removeParameter_ne {change : Change}
    (h : change ∈ (removeParameter source callback).changes) :
    change.edit? source ≠ some (.replace first.span completionName) := by
  intro hedit
  have hparts := parts_of_removeParameter h hedit
  exact absurd hparts (by simp [Edit.replace, completionName])

/-- A named context is renamed just if `end` or `fail` is used somewhere in the body. -/
theorem renamed_iff_of_named (h : Conversion source tree callback first body false changes)
    (hkind : (patternOf first).kind = .identifier)
    (hdeclared : (ScopeTable.build source tree).declaredAt? (patternOf first) = some binding)
    (hne : (patternOf first).text source ≠ completionName) :
    Edit.replace first.span completionName ∈ changes.edits ↔
      ∃ reference ∈ (ScopeTable.build source tree).references source body binding,
        CompletesAt source reference := by
  have htop : Within (root tree) first :=
    h.within.trans (below_of_mem_parameters h.mem_parameters).1
  have hlt := start_lt_stop_of_declaredAt? h.nest htop (within_patternOf first) hdeclared
  obtain ⟨_, _, htext, _⟩ := (ScopeTable.sound_build source tree).declared
    (htop.trans (within_patternOf first)) hdeclared
  have hplan : (namedPlan (ScopeTable.build source tree) source callback first (patternOf first)
      false).changes = _ := changes_namedPlan hdeclared h.child
  rw [← h.plan_eq.1 hkind] at hplan
  rw [← completes_iff]
  refine h.renamed_iff hplan ?_ ?_ ?_
  · intro change hchange edit hedit
    obtain ⟨reference, href, huse⟩ := List.mem_flatMap.mp hchange
    have hin := ScopeTable.within_of_mem_references href
    exact h.span_ne hlt hin (Use.request_of_change? (Option.mem_toList.mp huse)) hedit
  · intro change hchange
    split at hchange
    · exact absurd hchange List.not_mem_nil
    · exact edit?_removeParameter_ne hchange
  · intro _
    exact slice?_ne_of_named h.nest h.lex htop hkind htext hne

/-- A context that is taken apart is renamed just if the pattern has a member `end` or `fail`. -/
theorem renamed_iff_of_members (h : Conversion source tree callback first body false changes)
    (hkind : (patternOf first).kind = .objectPattern)
    (hconvertible : Convertible (ScopeTable.build source tree) source callback (patternOf first) body
      members) :
    Edit.replace first.span completionName ∈ changes.edits ↔
      ∃ member ∈ members, member.completes = true := by
  have htop : Within (root tree) first :=
    h.within.trans (below_of_mem_parameters h.mem_parameters).1
  obtain ⟨all, hall⟩ := hconvertible.exists_usesAll
  have hplan : (destructuredPlan (ScopeTable.build source tree) source callback first
      (patternOf first) false).changes = _ :=
    changes_destructuredPlan h.child hconvertible.read hall
  rw [← h.plan_eq.2 hkind, (Member.plan_of_usesAll hall).2, Bool.false_or] at hplan
  rw [← List.any_eq_true]
  refine h.renamed_iff hplan ?_ ?_ ?_
  · intro change hchange edit hedit
    obtain ⟨member, hmember, rule, binding, reference, hrule, hdeclared, href, hrequest⟩ :=
      exists_of_mem_memberChanges hall hchange
    have hlocal : Local source first member.binder :=
      .member hkind hconvertible.read hmember (by simp [hrule])
    have hin := ScopeTable.within_of_mem_references href
    exact h.span_ne (start_lt_stop_of_declaredAt? h.nest htop hlocal.within hdeclared) hin hrequest
      hedit
  · intro change hchange
    exact edit?_removeParameter_ne hchange
  · intro hends
    obtain ⟨member, hmember, hcompletes⟩ := List.any_eq_true.mp hends
    exact slice?_ne_of_member h.nest htop hconvertible.read hmember hcompletes

end Conversion

/-! ## Use and completion -/

/-- The changes for a callback can all be recorded. -/
theorem exists_applyAll_plan (hnest : tree.WellNested source) (htrim : tree.Trimmed source)
    (hcallback : Within (root tree) callback) (hliteral : callback.kind.isCallbackLiteral = true)
    (completion : Bool) :
    ∃ changes, ChangeSet.applyAll { source }
      (plan (ScopeTable.build source tree) source callback completion).changes = .ok changes := by
  apply Site.exists_applyAll hnest
  intro change hchange
  obtain ⟨_, _, _, node, _, _, _, hsite, _⟩ := site_of_plan hnest htrim hcallback hliteral hchange
  exact ⟨node, hsite⟩

/-- The body has a reference to a member `end` or `fail`. -/
def UsesCompletion (table : ScopeTable) (source : Source) (body : Node) (members : List Member) :
    Prop :=
  ∃ member ∈ members, member.completes = true ∧
    ∃ reference, reference ∈ member.references table source body

/-- For a callback that is not registered with a completion callback all edits can be recorded.  A
named context, unless it is called so already, becomes the completion callback just if its `end` or
`fail` is used in the body.  A context that is taken apart becomes one just if it has such a member;
that agrees with the use of such members exactly if one of them is used or there is none. -/
theorem completion_follows_use (source : Source) (tree : Tree) (callback first body : Node)
    (rest : List Node) (hnest : tree.WellNested source) (hlex : tree.Lexical source)
    (htrim : tree.Trimmed source) (hcallback : Within (root tree) callback)
    (hliteral : callback.kind.isCallbackLiteral = true)
    (hparameters : callback.parameters = first :: rest)
    (hbody : callback.child? .body = some body) :
    ∃ changes, ChangeSet.applyAll { source }
        (plan (ScopeTable.build source tree) source callback false).changes = .ok changes ∧
      (∀ binding, (patternOf first).kind = .identifier →
        (ScopeTable.build source tree).declaredAt? (patternOf first) = some binding →
        (patternOf first).text source ≠ completionName →
        (Edit.replace first.span completionName ∈ changes.edits ↔
          ∃ reference ∈ (ScopeTable.build source tree).references source body binding,
            CompletesAt source reference)) ∧
      ∀ members, (patternOf first).kind = .objectPattern →
        Convertible (ScopeTable.build source tree) source callback (patternOf first) body members →
        (Edit.replace first.span completionName ∈ changes.edits ↔
          ∃ member ∈ members, member.completes = true) ∧
        ((Edit.replace first.span completionName ∈ changes.edits ↔
            UsesCompletion (ScopeTable.build source tree) source body members) ↔
          (UsesCompletion (ScopeTable.build source tree) source body members ∨
            ∀ member ∈ members, member.completes = false)) := by
  obtain ⟨changes, hrun⟩ := exists_applyAll_plan hnest htrim hcallback hliteral false
  have h : Conversion source tree callback first body false changes :=
    ⟨hnest, hlex, hcallback, hliteral, by rw [hparameters]; rfl, hbody, hrun⟩
  refine ⟨changes, hrun, ?_, ?_⟩
  · intro binding hkind hdeclared hne
    exact h.renamed_iff_of_named hkind hdeclared hne
  · intro members hkind hconvertible
    have hrenamed := h.renamed_iff_of_members hkind hconvertible
    refine ⟨hrenamed, ?_⟩
    rw [hrenamed]
    constructor
    · intro hagree
      by_cases hsome : ∃ member ∈ members, member.completes = true
      · exact .inl (hagree.mp hsome)
      · refine .inr fun member hmember => ?_
        by_contra htrue
        exact hsome ⟨member, hmember, by simpa using htrue⟩
    · rintro (hused | hnone)
      · refine ⟨fun _ => hused, fun _ => ?_⟩
        obtain ⟨member, hmember, hcompletes, _⟩ := hused
        exact ⟨member, hmember, hcompletes⟩
      · constructor
        · rintro ⟨member, hmember, hcompletes⟩
          exact absurd hcompletes (by simp [hnone member hmember])
        · rintro ⟨member, hmember, hcompletes, _⟩
          exact ⟨member, hmember, hcompletes⟩

/-- A test that ends by its named context, and one that takes its context apart and hands `end` on. -/
theorem completion_follows_use_apart :
    (∃ callback first body binding changes, callback.child? .body = some body ∧
      (patternOf first).kind = .identifier ∧
      (ScopeTable.build Sample.source Sample.tree).declaredAt? (patternOf first) = some binding ∧
      ChangeSet.applyAll { source := Sample.source } (plan (ScopeTable.build Sample.source Sample.tree)
        Sample.source callback false).changes = .ok changes ∧
      Edit.replace first.span completionName ∈ changes.edits ∧
      ∃ reference ∈ (ScopeTable.build Sample.source Sample.tree).references Sample.source body binding,
        CompletesAt Sample.source reference) ∧
    ∃ callback first body members changes,
      Convertible (ScopeTable.build Apart.source Apart.tree) Apart.source callback (patternOf first)
        body members ∧
      ChangeSet.applyAll { source := Apart.source } (plan (ScopeTable.build Apart.source Apart.tree)
        Apart.source callback false).changes = .ok changes ∧
      Edit.replace first.span completionName ∈ changes.edits ∧
      UsesCompletion (ScopeTable.build Apart.source Apart.tree) Apart.source body members := by
  constructor
  · have hfound : ((root Sample.tree).nodes.any fun callback => callback.kind.isCallbackLiteral &&
        callback.parameters.head?.any fun first => (patternOf first).kind == .identifier &&
          (patternOf first).text Sample.source != completionName &&
          (callback.child? .body).any fun _ =>
            ((ScopeTable.build Sample.source Sample.tree).declaredAt? (patternOf first)).any fun _ =>
              (ChangeSet.applyAll { source := Sample.source } (plan (ScopeTable.build Sample.source
                Sample.tree) Sample.source callback false).changes).toOption.any fun changes =>
                  decide (Edit.replace first.span completionName ∈ changes.edits)) = true := by
      decide +kernel
    simp only [List.any_eq_true, Bool.and_eq_true, Option.any_eq_true, beq_iff_eq, bne_iff_ne,
      toOption_eq_some, decide_eq_true_eq] at hfound
    obtain ⟨callback, hcallback, hliteral, first, hfirst, ⟨hkind, hne⟩, body, hbody, binding,
      hdeclared, changes, hchanges, hedit⟩ := hfound
    obtain ⟨rest, hparameters⟩ := List.head?_eq_some_iff.mp hfirst
    obtain ⟨_, hrun, hnamed, _⟩ := completion_follows_use Sample.source Sample.tree callback first
      body rest (by decide +kernel) (by decide +kernel) (by decide +kernel)
      (mem_nodes_iff.mp hcallback) hliteral hparameters hbody
    rw [hchanges] at hrun
    cases hrun
    exact ⟨callback, first, body, binding, changes, hbody, hkind, hdeclared, hchanges, hedit,
      (hnamed binding hkind hdeclared hne).mp hedit⟩
  · have hfound : ((root Apart.tree).nodes.any fun callback => callback.kind.isCallbackLiteral &&
        callback.parameters.head?.any fun first => (patternOf first).kind == .objectPattern &&
          (callback.child? .body).any fun body =>
            (Member.ofPattern? Apart.source (patternOf first)).any fun members =>
              ((Member.usesAll (ScopeTable.build Apart.source Apart.tree) Apart.source body
                members).toOption.any fun _ => true) &&
              members.any fun member => member.completes &&
                (member.references (ScopeTable.build Apart.source Apart.tree) Apart.source
                  body).any fun _ => true) = true := by
      decide +kernel
    simp only [List.any_eq_true, Bool.and_eq_true, Option.any_eq_true, beq_iff_eq,
      toOption_eq_some] at hfound
    obtain ⟨callback, hcallback, hliteral, first, hfirst, hkind, body, hbody, members, hmembers,
      ⟨_, hall, _⟩, member, hmember, hcompletes, reference, href, _⟩ := hfound
    obtain ⟨rest, hparameters⟩ := List.head?_eq_some_iff.mp hfirst
    have hconvertible := convertible_of_usesAll hbody hmembers hall
    have hused : UsesCompletion (ScopeTable.build Apart.source Apart.tree) Apart.source body
        members := ⟨member, hmember, hcompletes, reference, href⟩
    obtain ⟨changes, hrun, _, hmembers⟩ := completion_follows_use Apart.source Apart.tree callback
      first body rest (by decide +kernel) (by decide +kernel) (by decide +kernel)
      (mem_nodes_iff.mp hcallback) hliteral hparameters hbody
    exact ⟨callback, first, body, members, changes, hconvertible, hrun,
      ((hmembers members hkind hconvertible).2.mpr (.inl hused)).mpr hused, hused⟩

end Callback

namespace Idle

open Sample (node token name quoted statement taking)
open Context Callback

/-- A test with a member that is never used. -/
def source : Source where
  text := "import test from 'ava';\ntest((\x7bend\x7d) => \x7b\x7d);\n"

/-- The tree of the file. -/
def tree : Tree :=
  node .program 0 45 none
    [ node .importStatement 0 23 none
        [ token "import" 0 6, node .importClause 7 11 none [name 7 11 none], token "from" 12 16,
          quoted 17 22 (some .source), token ";" 22 23 ],
      statement 24 44 (name 24 28 (some .function))
        [taking 29 36 42 [node .shorthandPattern 31 34 none []] []] ]

/-- The test becomes one that waits for a completion callback, and nothing in it calls that. -/
theorem completes_without_use :
    (tree.WellNested source ∧ tree.Lexical source ∧ tree.Trimmed source) ∧
    ∃ callback first body rest members changes, Within (root tree) callback ∧
      callback.kind.isCallbackLiteral = true ∧ callback.parameters = first :: rest ∧
      (patternOf first).kind = .objectPattern ∧
      Convertible (ScopeTable.build source tree) source callback (patternOf first) body members ∧
      ¬ UsesCompletion (ScopeTable.build source tree) source body members ∧
      ChangeSet.applyAll { source }
        (plan (ScopeTable.build source tree) source callback false).changes = .ok changes ∧
      Edit.replace first.span completionName ∈ changes.edits := by
  refine ⟨by decide +kernel, ?_⟩
  have hfound : ((root tree).nodes.any fun callback => callback.kind.isCallbackLiteral &&
      callback.parameters.head?.any fun first => (patternOf first).kind == .objectPattern &&
        (callback.child? .body).any fun body =>
          (Member.ofPattern? source (patternOf first)).any fun members =>
            ((Member.usesAll (ScopeTable.build source tree) source body
              members).toOption.any fun _ => true) &&
            (members.all fun member =>
              (member.references (ScopeTable.build source tree) source body).isEmpty) &&
            (ChangeSet.applyAll { source } (plan (ScopeTable.build source tree) source callback
              false).changes).toOption.any fun changes =>
                decide (Edit.replace first.span completionName ∈ changes.edits)) = true := by
    decide +kernel
  simp only [List.any_eq_true, Bool.and_eq_true, Option.any_eq_true, beq_iff_eq, toOption_eq_some,
    List.all_eq_true, List.isEmpty_iff, decide_eq_true_eq] at hfound
  obtain ⟨callback, hcallback, hliteral, first, hfirst, hkind, body, hbody, members, hmembers,
    ⟨⟨_, hall, _⟩, hunused⟩, changes, hchanges, hedit⟩ := hfound
  obtain ⟨rest, hparameters⟩ := List.head?_eq_some_iff.mp hfirst
  refine ⟨callback, first, body, rest, members, changes, mem_nodes_iff.mp hcallback, hliteral,
    hparameters, hkind, convertible_of_usesAll hbody hmembers hall, ?_, hchanges, hedit⟩
  rintro ⟨member, hmember, _, reference, href⟩
  rw [hunused member hmember] at href
  exact absurd href List.not_mem_nil

end Idle

end JestMigration
