/-
# `Proofs.Callback.Removal` — when a named parameter goes

A named context that does not become the completion callback is taken out, left
alone, or reported.  It can go if every reference is dispensable: a call of a
method with a rule, or an access to `context` that is not itself called.  That
is said here of the tree around the reference (`Dispensable`), and
`keepsParameter_iff` compares it with the classification of uses.  Then the
parameter goes if it is the only one, and is reported if others follow it; one
reference that is not dispensable and the parameter is not touched
(`removed_iff`, `separate_of_kept`, `diagnostics_of_named`).
-/
import JestMigration.Proofs.Callback.Completion

namespace JestMigration

open Node

/-- Names hold no parentheses. -/
def Tree.BareNames (source : Source) (tree : Tree) : Prop :=
  ∀ node ∈ (root tree).nodes, node.kind.isName = true →
    ∀ byte ∈ source.cut node.span, byte ≠ 40 ∧ byte ≠ 41

instance (source : Source) (tree : Tree) : Decidable (tree.BareNames source) :=
  inferInstanceAs (Decidable (∀ node ∈ (root tree).nodes, node.kind.isName = true →
    ∀ byte ∈ source.cut node.span, byte ≠ 40 ∧ byte ≠ 41))

theorem Rule.isSome_find?_iff {method : String} :
    (find? method).isSome ↔ ∃ rule ∈ all, rule.method = method := by
  simp [find?, List.find?_isSome]

namespace Context

/-! ## Uses that need no context -/

/-- The member expression has the node for its object, and behind the dot a plain name. -/
structure Accesses (source : Source) (tree : Tree) (node member : Node) (name : String) : Prop where
  within : Within (root tree) member
  kind : member.kind = .memberExpression
  object : member.child? .object = some node
  property : ∃ property, member.child? .property = some property ∧
    property.kind = .propertyIdentifier ∧ property.text source = name

/-- The node is the callee of a call with an argument list. -/
def Called (tree : Tree) (node : Node) : Prop :=
  ∃ call list, Within (root tree) call ∧ call.kind = .callExpression ∧
    call.child? .function = some node ∧ call.child? .arguments = some list ∧ list.kind = .arguments

/-- The context is used for a call of a method with a rule, or for its `context`, not called. -/
def Dispensable (source : Source) (tree : Tree) (reference : Node) : Prop :=
  ∃ member name, Accesses source tree reference member name ∧
    ((Called tree member ∧ ∃ rule ∈ Rule.all, rule.method = name) ∨
      (name = "context" ∧ ¬ Called tree member))

section

variable {source : Source} {tree : Tree} {node reference member : Node} {name : String}

theorem propertyName?_eq_some_iff : member.propertyName? source = some name ↔
    ∃ property, member.child? .property = some property ∧
      property.kind = .propertyIdentifier ∧ property.text source = name := by
  unfold propertyName?
  cases member.child? .property with
  | none => simp
  | some property => simp

theorem isSome_arguments?_iff {call : Node} : call.arguments?.isSome = true ↔
    ∃ list, call.child? .arguments = some list ∧ list.kind = .arguments := by
  unfold arguments?
  cases call.child? .arguments with
  | none => simp
  | some list => by_cases hkind : list.kind = .arguments <;> simp [hkind]

theorem accesses_iff (h : Within (root tree) node) : Accesses source tree node member name ↔
    node.memberOf? = some member ∧ member.propertyName? source = some name := by
  rw [memberOf?, headOf?_eq_some_iff h, propertyName?_eq_some_iff]
  exact ⟨fun ⟨hwithin, hkind, hobject, hproperty⟩ => ⟨⟨hwithin, hkind, hobject⟩, hproperty⟩,
    fun ⟨⟨hwithin, hkind, hobject⟩, hproperty⟩ => ⟨hwithin, hkind, hobject, hproperty⟩⟩

theorem called_iff (h : Within (root tree) node) :
    Called tree node ↔ (callWithArguments? node).isSome = true := by
  rw [Option.isSome_iff_exists]
  constructor
  · rintro ⟨call, list, hwithin, hkind, hfunction, hlist, hislist⟩
    exact ⟨call, callWithArguments?_eq_some_iff.mpr
      ⟨headOf?_of_child? hkind hfunction, isSome_arguments?_iff.mpr ⟨list, hlist, hislist⟩⟩⟩
  · rintro ⟨call, hcall⟩
    obtain ⟨hcallee, harguments⟩ := callWithArguments?_eq_some_iff.mp hcall
    obtain ⟨hwithin, hkind, hfunction⟩ := (headOf?_eq_some_iff h).mp hcallee
    obtain ⟨list, hlist, hislist⟩ := isSome_arguments?_iff.mp harguments
    exact ⟨call, list, hwithin, hkind, hfunction, hlist, hislist⟩

/-- Whether a use is dispensable shows in the member expression alone. -/
theorem dispensable_iff (h : Within (root tree) reference)
    (hmember : reference.memberOf? = some member)
    (hname : member.propertyName? source = some name) :
    Dispensable source tree reference ↔
      (((callWithArguments? member).isSome = true ∧ (Rule.find? name).isSome = true) ∨
        (name = "context" ∧ (callWithArguments? member).isSome = false)) := by
  have hwithin := ((headOf?_eq_some_iff h).mp hmember).1
  rw [← Bool.not_eq_true, ← called_iff hwithin, Rule.isSome_find?_iff]
  constructor
  · rintro ⟨member', name', haccess, huse⟩
    obtain ⟨hmember', hname'⟩ := (accesses_iff h).mp haccess
    obtain rfl : member = member' := Option.some.inj (hmember.symm.trans hmember')
    obtain rfl : name = name' := Option.some.inj (hname.symm.trans hname')
    exact huse
  · intro huse
    exact ⟨member, name, (accesses_iff h).mpr ⟨hmember, hname⟩, huse⟩

theorem Use.keepsParameter_ofValue (hend : name ≠ "end") (hfail : name ≠ "fail") :
    (ofValue member name).keepsParameter = false ↔ name = "context" := by
  unfold ofValue
  rw [if_neg hend, if_neg hfail]
  by_cases hcontext : name = "context"
  · rw [if_pos hcontext]
    refine ⟨fun _ => hcontext, fun _ => ?_⟩
    split <;> rfl
  · rw [if_neg hcontext]
    exact ⟨fun h => absurd h (by simp [keepsParameter]), fun h => absurd h hcontext⟩

/-- Apart from what completes, a use lets the parameter go just if it is dispensable. -/
theorem Use.keepsParameter_iff (h : Within (root tree) reference)
    (hidle : ¬ CompletesAt source reference) :
    (classify source reference).keepsParameter = false ↔ Dispensable source tree reference := by
  -- Without a member, or without a plain name, nothing is accessed.
  have hnone : (∀ member name, ¬ (reference.memberOf? = some member ∧
      member.propertyName? source = some name)) → ¬ Dispensable source tree reference := by
    rintro hnot ⟨member, name, haccess, _⟩
    exact hnot member name ((accesses_iff h).mp haccess)
  cases hmember : reference.memberOf? with
  | none =>
      refine ⟨fun hkeeps => ?_, fun huse => absurd huse (hnone (by simp [hmember]))⟩
      simp only [classify, hmember] at hkeeps
      exact absurd hkeeps (by simp [keepsParameter])
  | some member =>
      cases hname : member.propertyName? source with
      | none =>
          refine ⟨fun hkeeps => ?_, fun huse => absurd huse (hnone ?_)⟩
          · simp only [classify, hmember, hname] at hkeeps
            exact absurd hkeeps (by simp [keepsParameter])
          · rintro member' name ⟨hmember', hname'⟩
            obtain rfl : member = member' := Option.some.inj (hmember.symm.trans hmember')
            exact absurd (hname.symm.trans hname') (by simp)
      | some name =>
          have hidle' : name ≠ "end" ∧ name ≠ "fail" :=
            not_or.mp fun hcompletes => hidle ⟨member, name, hmember, hname, hcompletes⟩
          rw [dispensable_iff h hmember hname]
          simp only [classify, hmember, hname]
          cases callWithArguments? member with
          | none => simp [Use.keepsParameter_ofValue hidle'.1 hidle'.2]
          | some call => cases Rule.find? name <;> simp [keepsParameter]

end

end Context

/-! ## The place of the parameter -/

namespace Callback

open Context

/-- A single parameter without a list, or the list that the parameters stand in. -/
def parameterPlace? (callback : Node) : Option Node :=
  (callback.child? .parameter).or (callback.child? .parameters)

section

variable {source : Source} {tree : Tree} {callback first body place : Node} {rest : List Node}
  {binding : BindingId}

theorem exists_parameterPlace? (h : callback.parameters = first :: rest) :
    ∃ place, parameterPlace? callback = some place ∧ Within place first ∧
      (callback.child? .parameter = some place ∨ callback.child? .parameters = some place) := by
  unfold parameters at h
  unfold parameterPlace?
  split at h
  · rename_i parameter hparameter
    cases h
    exact ⟨first, by simp [hparameter], .self, .inl hparameter⟩
  · rename_i hnone
    split at h
    · rename_i list hlist
      exact ⟨list, by simp [hnone, hlist],
        within_of_mem_namedChildren (h ▸ List.mem_cons_self), .inr hlist⟩
    · exact absurd h (by simp)

/-- Only a single parameter is taken out. -/
theorem removeParameter_eq (hplace : parameterPlace? callback = some place)
    (h : callback.parameters = first :: rest) :
    removeParameter source callback = if rest.isEmpty then Plan.replace place "()"
      else Plan.warn source place .extraParameters := by
  unfold removeParameter
  unfold parameterPlace? at hplace
  cases hparameter : callback.child? .parameter with
  | some parameter =>
      rw [hparameter] at hplace
      cases hplace
      simp only [parameters, hparameter, List.cons.injEq] at h
      rw [← h.2]
      rfl
  | none =>
      rw [hparameter, Option.none_or] at hplace
      simp only [hplace, h]
      cases rest with
      | nil => rfl
      | cons => rfl

/-- A place that holds a name is not an empty list yet. -/
theorem slice?_ne_of_bareNames (hnest : tree.WellNested source) (hbare : tree.BareNames source)
    (hplace : Within (root tree) place) {name : Node} (hin : Within place name)
    (hmention : Mention source tree name) : source.slice? place.span ≠ some "()" := by
  intro hslice
  obtain ⟨i, hi, j, hj, hcut⟩ := Source.exists_cut_of_slice? hslice hmention.slice?_eq
    (hnest.contains hplace hin)
  rw [Source.bytes_of_slice? hmention.slice?_eq] at hcut
  have hbytes := hbare name (mem_nodes_of_within hmention.within) hmention.isName
  -- All bytes of the list are parentheses, so the name has no byte.
  have hparts : ∀ i ≤ (Source.mk "()").size, ∀ j ≤ (Source.mk "()").size,
      ∀ byte ∈ (Source.mk "()").cut ⟨i, j⟩, byte = 40 ∨ byte = 41 := by
    decide +kernel
  have hempty : source.cut name.span = [] := by
    refine List.eq_nil_iff_forall_not_mem.mpr fun byte hbyte => ?_
    rcases hparts i hi j hj byte (hcut ▸ hbyte) with h | h
    · exact (hbytes byte hbyte).1 h
    · exact (hbytes byte hbyte).2 h
  have hlength := congrArg List.length hempty
  rw [Source.length_cut (Source.le_size_of_isBoundary
    (Source.bounds_of_slice? hmention.slice?_eq).2.2)] at hlength
  have hlt := hmention.start_lt_stop
  simp only [List.length_nil] at hlength
  omega

/-! ## Callbacks that do not complete -/

/-- Every reference in the body is dispensable. -/
def Unneeded (source : Source) (tree : Tree) (body : Node) (binding : BindingId) : Prop :=
  ∀ reference ∈ (ScopeTable.build source tree).references source body binding,
    Dispensable source tree reference

/-- Is the parameter needed at one of the uses? -/
def keeps (uses : List (Node × Use)) : Bool :=
  uses.any fun use => use.2.keepsParameter

/-- A function literal with a named context that does not become the completion callback. -/
structure Idling (source : Source) (tree : Tree) (callback first body : Node) (rest : List Node)
    (binding : BindingId) : Prop where
  nest : tree.WellNested source
  within : Within (root tree) callback
  literal : callback.kind.isCallbackLiteral = true
  parameters : callback.parameters = first :: rest
  kind : (patternOf first).kind = .identifier
  declared : (ScopeTable.build source tree).declaredAt? (patternOf first) = some binding
  child : callback.child? .body = some body
  idle : ∀ reference ∈ (ScopeTable.build source tree).references source body binding,
    ¬ CompletesAt source reference

namespace Idling

variable {changes : ChangeSet}

theorem plan_eq (h : Idling source tree callback first body rest binding) :
    plan (ScopeTable.build source tree) source callback false =
      namedPlan (ScopeTable.build source tree) source callback first (patternOf first) false :=
  plan_eq_namedPlan h.parameters h.kind

theorem completes_eq (h : Idling source tree callback first body rest binding) :
    completes false (namedUses (ScopeTable.build source tree) source body binding) = false := by
  rw [← Bool.not_eq_true, completes_iff]
  rintro ⟨reference, href, hcompletes⟩
  exact h.idle reference href hcompletes

/-- The parameter may go just if every reference is dispensable. -/
theorem keeps_iff (h : Idling source tree callback first body rest binding) :
    keeps (namedUses (ScopeTable.build source tree) source body binding) = false ↔
      Unneeded source tree body binding := by
  have htop := h.within.trans (within_of_child? h.child)
  simp only [keeps, namedUses, List.any_map, List.any_eq_false, Function.comp_apply,
    Bool.not_eq_true]
  exact forall₂_congr fun reference href =>
    Use.keepsParameter_iff (htop.trans (ScopeTable.within_of_mem_references href))
      (h.idle reference href)

theorem removable_iff (h : Idling source tree callback first body rest binding) :
    rest = [] ∧ Unneeded source tree body binding ↔
      (!keeps (namedUses (ScopeTable.build source tree) source body binding) && rest.isEmpty) =
        true := by
  rw [← h.keeps_iff, Bool.and_eq_true, Bool.not_eq_true', List.isEmpty_iff, and_comm]

theorem reported_iff (h : Idling source tree callback first body rest binding) :
    rest ≠ [] ∧ Unneeded source tree body binding ↔
      (!keeps (namedUses (ScopeTable.build source tree) source body binding) && !rest.isEmpty) =
        true := by
  rw [← h.keeps_iff, Bool.and_eq_true, Bool.not_eq_true', Bool.not_eq_true',
    List.isEmpty_eq_false_iff, and_comm]

/-- What is asked for: something for each reference, and then an empty list if nothing is in the
way. -/
theorem changes_eq (h : Idling source tree callback first body rest binding)
    (hplace : parameterPlace? callback = some place) :
    (plan (ScopeTable.build source tree) source callback false).changes =
      (((ScopeTable.build source tree).references source body binding).flatMap fun reference =>
        ((Use.classify source reference).change? source ((patternOf first).text source) false
          reference).toList) ++
      if !keeps (namedUses (ScopeTable.build source tree) source body binding) && rest.isEmpty then
        [.replace place.span "()"]
      else [] := by
  rw [h.plan_eq, changes_namedPlan h.declared h.child, h.completes_eq, if_neg (by simp),
    removeParameter_eq hplace h.parameters]
  congr 1
  unfold keeps
  cases (namedUses (ScopeTable.build source tree) source body binding).any
      fun use => use.2.keepsParameter with
  | true => rfl
  | false => cases rest <;> rfl

/-- What is asked for because of a reference is not about the parameters. -/
theorem separate_of_reference (h : Idling source tree callback first body rest binding)
    (hchild : callback.child? .parameter = some place ∨ callback.child? .parameters = some place)
    {change : Change} {edit : Edit}
    (hchange : change ∈ ((ScopeTable.build source tree).references source body binding).flatMap
      fun reference => ((Use.classify source reference).change? source
        ((patternOf first).text source) false reference).toList)
    (hedit : change.edit? source = some edit) : edit.span.Separate place.span := by
  obtain ⟨reference, href, huse⟩ := List.mem_flatMap.mp hchange
  have hinside := (Use.request_of_change? (Option.mem_toList.mp huse)).inside h.nest h.within
    h.literal (mem_children_of_child? h.child) (ScopeTable.within_of_mem_references href)
  have hapart := h.nest.separate (apart_body h.within hchild .self h.child)
  have hspan := Span.contains_iff.mp hinside.contained
  rw [Change.span_of_edit? hedit]
  rcases hapart with hleft | hright
  · exact .inr (by omega)
  · exact .inl (by omega)

/-- The parameter is taken out just if it is the only one and every reference is dispensable. -/
theorem removed_iff (h : Idling source tree callback first body rest binding)
    (hbare : tree.BareNames source) (hplace : parameterPlace? callback = some place)
    (hchild : callback.child? .parameter = some place ∨ callback.child? .parameters = some place)
    (hin : Within place first) (hrun : ChangeSet.applyAll { source }
      (plan (ScopeTable.build source tree) source callback false).changes = .ok changes) :
    Edit.replace place.span "()" ∈ changes.edits ↔
      rest = [] ∧ Unneeded source tree body binding := by
  have hwithin := h.within.child (mem_children_of_parameter hchild)
  have hname := hin.trans (within_patternOf first)
  obtain ⟨_, _, htext, _⟩ := (ScopeTable.sound_build source tree).declared
    (hwithin.trans hname) h.declared
  have hmention : Mention source tree (patternOf first) :=
    ⟨hwithin.trans hname, by rw [h.kind]; rfl, htext⟩
  have hlt := start_lt_stop_of_declaredAt? h.nest hwithin hname h.declared
  rw [h.changes_eq hplace] at hrun
  rw [h.removable_iff]
  refine ChangeSet.replace_mem_applyAll_iff hrun ?_ ?_ ?_
  · intro change hchange edit hedit hspan
    have hseparate := h.separate_of_reference hchild hchange hedit
    rw [hspan] at hseparate
    rcases hseparate with h | h <;> omega
  · intro change hchange
    exact absurd hchange List.not_mem_nil
  · intro _
    exact slice?_ne_of_bareNames h.nest hbare hwithin hname hmention

/-- If the parameter is not taken out, no edit touches its place. -/
theorem separate_of_kept (h : Idling source tree callback first body rest binding)
    (hplace : parameterPlace? callback = some place)
    (hchild : callback.child? .parameter = some place ∨ callback.child? .parameters = some place)
    (hrun : ChangeSet.applyAll { source }
      (plan (ScopeTable.build source tree) source callback false).changes = .ok changes)
    (hkept : ¬ (rest = [] ∧ Unneeded source tree body binding)) :
    ∀ edit ∈ changes.edits, edit.span.Separate place.span := by
  intro edit hmem
  rw [h.changes_eq hplace, if_neg (mt h.removable_iff.mpr hkept), List.append_nil] at hrun
  obtain ⟨change, hchange, hedit⟩ := ChangeSet.origin_applyAll hrun hmem
  exact h.separate_of_reference hchild hchange hedit

/-- What is reported: something at nodes of the body, and then the further parameters if they are
all that is in the way. -/
theorem diagnostics_of_named (h : Idling source tree callback first body rest binding)
    (hplace : parameterPlace? callback = some place) :
    ∃ said, (∀ diagnostic ∈ said, ∃ node, Within body node ∧ diagnostic.IsAt source node) ∧
      (plan (ScopeTable.build source tree) source callback false).diagnostics = said ++
        if !keeps (namedUses (ScopeTable.build source tree) source body binding) &&
            !rest.isEmpty then
          [.ofNode source place Finding.extraParameters.message]
        else [] := by
  refine ⟨((namedUses (ScopeTable.build source tree) source body binding).flatMap fun use =>
    (use.2.plan source ((patternOf first).text source) false use.1).diagnostics), ?_, ?_⟩
  · intro diagnostic hmem
    obtain ⟨use, huse, hreport⟩ := List.mem_flatMap.mp hmem
    obtain ⟨reference, href, rfl⟩ := List.mem_map.mp huse
    obtain ⟨node, hhead, hat⟩ := Use.report_of_plan hreport
    exact ⟨node, hhead.within_body h.within h.literal (mem_children_of_child? h.child)
      (ScopeTable.within_of_mem_references href), hat⟩
  · have hcompletes := h.completes_eq
    unfold completes at hcompletes
    simp only [h.plan_eq, namedPlan, h.declared, h.child, Plan.diagnostics_append,
      Plan.diagnostics_flatMap, hcompletes, removeParameter_eq hplace h.parameters]
    congr 1
    unfold keeps
    cases (namedUses (ScopeTable.build source tree) source body binding).any
        fun use => use.2.keepsParameter with
    | true => rfl
    | false => cases rest <;> rfl

end Idling

/-- A named context that does not become the completion callback is replaced by an empty list just
if it is the only parameter and every reference to it in the body is dispensable; else no edit
touches the place of the parameters.  Besides what is said about nodes of the body, the further
parameters are reported at that place, just if they alone are in the way. -/
theorem parameter_removed_just_if_unneeded (source : Source) (tree : Tree)
    (callback first body : Node) (rest : List Node) (binding : BindingId)
    (hnest : tree.WellNested source) (hbare : tree.BareNames source)
    (hcallback : Within (root tree) callback) (hliteral : callback.kind.isCallbackLiteral = true)
    (hparameters : callback.parameters = first :: rest)
    (hkind : (patternOf first).kind = .identifier)
    (hdeclared : (ScopeTable.build source tree).declaredAt? (patternOf first) = some binding)
    (hbody : callback.child? .body = some body)
    (hidle : ∀ reference ∈ (ScopeTable.build source tree).references source body binding,
      ¬ CompletesAt source reference) :
    (tree.Trimmed source → ∃ changes, ChangeSet.applyAll { source }
      (plan (ScopeTable.build source tree) source callback false).changes = .ok changes) ∧
    ∃ place said, parameterPlace? callback = some place ∧ Within place first ∧
      (∀ changes, ChangeSet.applyAll { source }
          (plan (ScopeTable.build source tree) source callback false).changes = .ok changes →
        (Edit.replace place.span "()" ∈ changes.edits ↔
          rest = [] ∧ Unneeded source tree body binding) ∧
        (¬ (rest = [] ∧ Unneeded source tree body binding) →
          ∀ edit ∈ changes.edits, edit.span.Separate place.span)) ∧
      (∀ diagnostic ∈ said, ∃ node, Within body node ∧ diagnostic.IsAt source node) ∧
      (rest ≠ [] ∧ Unneeded source tree body binding →
        (plan (ScopeTable.build source tree) source callback false).diagnostics =
          said ++ [.ofNode source place Finding.extraParameters.message]) ∧
      (¬ (rest ≠ [] ∧ Unneeded source tree body binding) →
        (plan (ScopeTable.build source tree) source callback false).diagnostics = said) := by
  have h : Idling source tree callback first body rest binding :=
    ⟨hnest, hcallback, hliteral, hparameters, hkind, hdeclared, hbody, hidle⟩
  obtain ⟨place, hplace, hin, hchild⟩ := exists_parameterPlace? hparameters
  obtain ⟨said, hsaid, hdiagnostics⟩ := h.diagnostics_of_named hplace
  refine ⟨fun htrim => exists_applyAll_plan hnest htrim hcallback hliteral false, place, said,
    hplace, hin, ?_, hsaid, ?_, ?_⟩
  · intro changes hrun
    exact ⟨h.removed_iff hbare hplace hchild hin hrun, h.separate_of_kept hplace hchild hrun⟩
  · intro hmore
    rw [hdiagnostics, if_pos (h.reported_iff.mp hmore)]
  · intro hnone
    rw [hdiagnostics, if_neg (mt h.reported_iff.mpr hnone), List.append_nil]

end

end Callback

namespace Crowded

open Sample (node token name quoted statement)
open Callback Context

/-- A test with a parameter after the context, and one whose context has a type. -/
def source : Source where
  text := "import test from 'ava';\ntest((t, u) => \x7b t.ok(u); \x7d);\n" ++
    "test((t: T) => \x7b t.context.f(1); \x7d);\n"

/-- A function with the given parameters in a list. -/
def listing (start body stop : Nat) (parameters statements : List Tree) : Tree :=
  node .arrowFunction start stop none
    [ node (.other "formal_parameters") start (body - 4) (some .parameters)
        (token "(" start (start + 1) :: parameters ++ [token ")" (body - 5) (body - 4)]),
      token "=>" (body - 3) (body - 1),
      node .statementBlock body stop (some .body)
        (token "\x7b" body (body + 1) :: statements ++ [token "\x7d" (stop - 1) stop]) ]

/-- The tree of the file. -/
def tree : Tree :=
  node .program 0 91 none
    [ node .importStatement 0 23 none
        [ token "import" 0 6, node .importClause 7 11 none [name 7 11 none], token "from" 12 16,
          quoted 17 22 (some .source), token ";" 22 23 ],
      statement 24 53 (name 24 28 (some .function))
        [ listing 29 39 51 [name 30 31 none, token "," 31 32, name 33 34 none]
            [statement 41 49 (Sample.member 41 42 45) [name 46 47 none]] ],
      statement 54 90 (name 54 58 (some .function))
        [ listing 59 69 88
            [ node .requiredParameter 60 64 none
                [ name 60 61 (some .pattern),
                  node (.other "type_annotation") 61 64 none
                    [token ":" 61 62, node (.other "type_identifier") 63 64 none []] ] ]
            [ statement 71 86
                (node .memberExpression 71 82 (some .function)
                  [ node .memberExpression 71 80 (some .object)
                      [ name 71 72 (some .object), token "." 72 73,
                        node .propertyIdentifier 73 80 (some .property) [] ],
                    token "." 80 81, node .propertyIdentifier 81 82 (some .property) [] ])
                [node (.other "number") 83 84 none []] ] ] ]

/-- Both contexts can be spared. -/
theorem exists_idling : ∀ count ∈ [1, 2], ∃ callback first body rest binding changes,
    Idling source tree callback first body rest binding ∧ (first :: rest).length = count ∧
    Unneeded source tree body binding ∧
    ChangeSet.applyAll { source }
      (plan (ScopeTable.build source tree) source callback false).changes = .ok changes := by
  have hfound : ∀ count ∈ [1, 2], ((root tree).nodes.any fun callback =>
      callback.kind.isCallbackLiteral && callback.parameters.length == count &&
        callback.parameters.head?.any fun first => (patternOf first).kind == .identifier &&
          (callback.child? .body).any fun body =>
            ((ScopeTable.build source tree).declaredAt? (patternOf first)).any fun binding =>
              let uses := namedUses (ScopeTable.build source tree) source body binding
              completes false uses == false && keeps uses == false) = true := by
    decide +kernel
  intro count hcount
  have hcallback := hfound count hcount
  simp only [List.any_eq_true, Bool.and_eq_true, Option.any_eq_true, beq_iff_eq] at hcallback
  obtain ⟨callback, hcallback, ⟨hliteral, hlength⟩, first, hfirst, hkind, body, hbody, binding,
    hdeclared, hcompletes, hkeeps⟩ := hcallback
  obtain ⟨rest, hparameters⟩ := List.head?_eq_some_iff.mp hfirst
  have hidling : Idling source tree callback first body rest binding := by
    refine ⟨by decide +kernel, mem_nodes_iff.mp hcallback, hliteral, hparameters, hkind, hdeclared,
      hbody, ?_⟩
    intro reference href hcompletesAt
    rw [completes_iff.mpr ⟨reference, href, hcompletesAt⟩] at hcompletes
    exact absurd hcompletes (by simp)
  obtain ⟨changes, hrun⟩ := exists_applyAll_plan hidling.nest (by decide +kernel) hidling.within
    hliteral false
  exact ⟨callback, first, body, rest, binding, changes, hidling, hparameters ▸ hlength,
    hidling.keeps_iff.mp hkeeps, hrun⟩

/-- The context with a type goes; the one before another parameter stays and is reported. -/
theorem parameter_removed_and_reported :
    (∃ callback first place changes, callback.parameters = [first] ∧
      parameterPlace? callback = some place ∧
      ChangeSet.applyAll { source }
        (plan (ScopeTable.build source tree) source callback false).changes = .ok changes ∧
      Edit.replace place.span "()" ∈ changes.edits) ∧
    ∃ callback first second place changes, callback.parameters = [first, second] ∧
      parameterPlace? callback = some place ∧
      ChangeSet.applyAll { source }
        (plan (ScopeTable.build source tree) source callback false).changes = .ok changes ∧
      (∀ edit ∈ changes.edits, edit.span.Separate place.span) ∧
      Diagnostic.ofNode source place Finding.extraParameters.message ∈
        (plan (ScopeTable.build source tree) source callback false).diagnostics := by
  constructor
  · obtain ⟨callback, first, body, rest, binding, changes, h, hlength, hunneeded, hrun⟩ :=
      exists_idling 1 (by decide)
    obtain rfl : rest = [] := List.eq_nil_of_length_eq_zero (Nat.succ.inj hlength)
    obtain ⟨_, place, _, hplace, _, hchanges, _⟩ := parameter_removed_just_if_unneeded source tree
      callback first body [] binding h.nest (by decide +kernel) h.within h.literal h.parameters
      h.kind h.declared h.child h.idle
    exact ⟨callback, first, place, changes, h.parameters, hplace, hrun,
      (hchanges changes hrun).1.mpr ⟨rfl, hunneeded⟩⟩
  · obtain ⟨callback, first, body, rest, binding, changes, h, hlength, hunneeded, hrun⟩ :=
      exists_idling 2 (by decide)
    obtain ⟨second, rfl⟩ := List.length_eq_one_iff.mp (Nat.succ.inj hlength)
    obtain ⟨_, place, said, hplace, _, hchanges, _, hreported, _⟩ :=
      parameter_removed_just_if_unneeded source tree callback first body [second] binding h.nest
        (by decide +kernel) h.within h.literal h.parameters h.kind h.declared h.child h.idle
    refine ⟨callback, first, second, place, changes, h.parameters, hplace, hrun,
      (hchanges changes hrun).2 (by simp), ?_⟩
    rw [hreported ⟨by simp, hunneeded⟩]
    exact List.mem_append_right _ List.mem_cons_self

end Crowded

end JestMigration
