/-
# `Proofs.Migration.Ownership` — every leaf belongs to one registration

What a registration changes and reports goes back to leaves that it owns: the
name of the test function in its callee, the references of its context, and
parts of its context parameter (`Owns`).  Registrations stand in each other's
callbacks and use each other's contexts, and still no leaf has two owners
(`Owns.unique`).

`exists_mark` finds the leaf for a change, and `exists_place` for a diagnostic.
The second needs a call that the scope analysis visits: it does not look below
an import, and there a name in a pattern may belong to a pattern further out.
-/
import JestMigration.Proofs.Callback.Reports
import JestMigration.Proofs.Migration.TestFunction

namespace JestMigration

open Node ScopeTable Callback

/-! ## Owners -/

/-- A name that is not declared is at least bound in the scope of the callback. -/
def Callback.Knows (source : Source) (tree : Tree) (callback leaf : Node) : Prop :=
  leaf.kind.isName = true → (build source tree).declaredAt? leaf = none → leaf.text source ≠ "" →
    (build source tree).HasName callback (leaf.text source)

/-- The leaf is the name of the test function in the callee, a reference of the context, or part of
the parameter. -/
inductive Owns (source : Source) (tree : Tree) (registration : Registration) (leaf : Node) : Prop
  | root {names : List String} :
      registration.callee.memberChain? source = some (leaf, names) →
      Owns source tree registration leaf
  | reference {callback : Node} : registration.callback? = some callback →
      Uses source tree callback leaf → Owns source tree registration leaf
  | parameter {callback : Node} : registration.callback? = some callback → Holds callback leaf →
      leaf.kind.isCallbackLiteral = false → Knows source tree callback leaf →
      Owns source tree registration leaf

section

variable {source : Source} {tree : Tree} {options : Options} {framework : Framework}
  {registration a b : Registration} {leaf : Node}

/-- A reference of one context that is part of the parameter of another one is both of one. -/
theorem Registered.eq_of_uses_holds (hlead : tree.Leading source)
    (ha : Registered source tree framework a) (hb : Registered source tree framework b)
    {callback other : Node} (hcallback : a.callback? = some callback)
    (hother : b.callback? = some other) (huses : Uses source tree callback leaf)
    (hholds : Holds other leaf) (hknows : Knows source tree other leaf) : a = b := by
  have hargument := ha.isArgument hcallback
  have hhas := hknows huses.isName huses.declaredAt?_eq_none (huses.text_ne hlead hargument)
  have hsame := huses.eq_of_holds hlead hholds hargument (hb.isArgument hother) hhas
  exact ha.eq_of_callback hb hcallback (hsame ▸ hother)

/-- No leaf has two owners. -/
theorem Owns.unique (hlead : tree.Leading source)
    (hdetect : Framework.detect? (Import.scan (build source tree) source (Node.root tree)) options =
      some framework)
    (ha : Registered source tree framework a) (hb : Registered source tree framework b)
    (h : Owns source tree a leaf) (h' : Owns source tree b leaf) : a = b := by
  cases h with
  | root hchain =>
      cases h' with
      | root hchain' => exact ha.eq_of_root hb hchain hchain'
      | reference hother huses =>
          exact absurd huses (ha.not_uses hlead hdetect hchain (hb.isArgument hother))
      | parameter hother hholds _ _ =>
          exact absurd hholds (ha.not_holds hchain (hb.isArgument hother).literal)
  | reference hcallback huses =>
      cases h' with
      | root hchain =>
          exact absurd huses (hb.not_uses hlead hdetect hchain (ha.isArgument hcallback))
      | reference hother huses' =>
          have hsame := huses.unique hlead huses' (ha.isArgument hcallback) (hb.isArgument hother)
          exact ha.eq_of_callback hb hcallback (hsame ▸ hother)
      | parameter hother hholds _ hname =>
          exact ha.eq_of_uses_holds hlead hb hcallback hother huses hholds hname
  | parameter hcallback hholds hkind hname =>
      cases h' with
      | root hchain => exact absurd hholds (hb.not_holds hchain (ha.isArgument hcallback).literal)
      | reference hother huses =>
          exact (hb.eq_of_uses_holds hlead ha hother hcallback huses hholds hname).symm
      | parameter hother hholds' _ _ =>
          have hsame := hholds.unique hholds' hkind (ha.isArgument hcallback) (hb.isArgument hother)
          exact ha.eq_of_callback hb hcallback (hsame ▸ hother)

/-! ## What belongs to a leaf -/

/-- A bracket that the callback holds is owned. -/
theorem Owns.of_token {callback : Node} {text : String}
    (hcallback : registration.callback? = some callback) (hholds : Holds callback leaf)
    (hkind : leaf.kind = .other text) :
    Owns source tree registration leaf :=
  .parameter hcallback hholds (by rw [hkind]; rfl)
    fun hname => absurd hname (by rw [hkind]; simp [Kind.isName])

/-- The bracket before the parameters. -/
theorem Owns.exists_parenthesis (hlead : tree.Leading source)
    (h : Registered source tree framework registration) {callback list : Node}
    (hcallback : registration.callback? = some callback)
    (hlist : callback.child? .parameters = some list) :
    ∃ leaf, IsLeaf tree leaf ∧ Owns source tree registration leaf ∧ Marks leaf list ∧
      list.span.start = leaf.span.start := by
  have hargument := h.isArgument hcallback
  have hmem := mem_children_of_child? hlist
  obtain ⟨hkind, hopened⟩ := hlead.lists callback (mem_nodes_of_within hargument.within)
    hargument.literal list hlist
  obtain ⟨leaf, hhead, hleaf, htoken, hstart⟩ :=
    IsLeaf.of_isOpened (by simp) (hargument.within.child hmem) hopened
  have hholds := (Holds.of_child hmem).child (by rw [hkind]; rfl) (List.mem_of_mem_head? hhead)
  exact ⟨leaf, hleaf, .of_token hcallback hholds htoken, .parenthesis hkind hhead hstart,
    hstart.symm⟩

/-- The bracket that a pattern opens with. -/
theorem Owns.exists_brace (hlead : tree.Leading source)
    (h : Registered source tree framework registration) {callback first : Node}
    (hcallback : registration.callback? = some callback) (hfirst : first ∈ callback.parameters)
    (hkind : (patternOf first).kind = .objectPattern) :
    ∃ leaf, IsLeaf tree leaf ∧ Owns source tree registration leaf ∧ Marks leaf first ∧
      (patternOf first).span.start = leaf.span.start := by
  have hargument := h.isArgument hcallback
  have hpattern := (Holds.parameter hlead hargument hfirst).pattern
  have hwithin := hargument.within.trans hpattern.within
  obtain ⟨leaf, hhead, hleaf, htoken, hstart⟩ :=
    IsLeaf.of_isOpened (by simp) hwithin (hlead.patterns _ (mem_nodes_of_within hwithin) hkind)
  have hholds := hpattern.child (by rw [hkind]; rfl) (List.mem_of_mem_head? hhead)
  exact ⟨leaf, hleaf, .of_token hcallback hholds htoken, .brace hkind hhead hstart, hstart.symm⟩

/-- A parameter is changed only if its name is declared. -/
theorem declared_of_plan {callback first : Node} {rest : List Node} {completion : Bool}
    {change : Change} {table : ScopeTable} (hparameters : callback.parameters = first :: rest)
    (hkind : (patternOf first).kind = .identifier)
    (h : change ∈ (Callback.plan table source callback completion).changes) :
    table.declaredAt? (patternOf first) ≠ none := by
  intro hnone
  simp only [Callback.plan, hparameters, hkind, namedPlan, hnone] at h
  exact absurd h List.not_mem_nil

theorem Registered.isLeaf_root (hlead : tree.Leading source)
    (h : Registered source tree framework registration) {names : List String}
    (hchain : registration.callee.memberChain? source = some (leaf, names)) : IsLeaf tree leaf := by
  obtain ⟨_, _, hkind, hwithin⟩ := h.head hchain
  exact .of_name hlead hwithin (.inl (by rw [hkind]; rfl))

/-- Every change of a registration goes back to a leaf that it owns. -/
theorem exists_mark (hnest : tree.WellNested source) (htrim : tree.Trimmed source)
    (hlead : tree.Leading source) (h : Registered source tree framework registration)
    {change : Change}
    (hchange : change ∈ (registration.plan (build source tree) source).changes) :
    ∃ leaf, IsLeaf tree leaf ∧ Owns source tree registration leaf ∧
      Marked source tree leaf change := by
  rcases Registration.changes_cases hchange with ⟨normalized, _, rfl⟩ |
    ⟨callback, completion, _, hcallback, hchange⟩
  · obtain ⟨_, _, _, chain, names, _, hchain, _⟩ := Registration.ofCall?_eq_some h.read
    obtain ⟨hhead, _, hkind, _⟩ := h.head hchain
    refine ⟨chain, h.isLeaf_root hlead hchain, .root hchain, registration.callee,
      Migration.site_of_callee hnest htrim h.within h.read, .head (by rw [hkind]; rfl) hhead, ?_⟩
    intro hstatement
    rcases Registration.kind_of_memberChain? hchain with hcallee | hcallee <;>
    · rw [hcallee] at hstatement
      exact absurd hstatement (by simp)
  · have hargument := h.isArgument hcallback
    obtain ⟨first, rest, body, node, hparameters, hpattern, hbody, hsite, hspot⟩ :=
      Callback.site_of_plan hnest htrim hargument.within hargument.literal hchange
    have hfirst : first ∈ callback.parameters := by simp [hparameters]
    cases hspot with
    | @reference name reference _ binding hlocal hdeclared href habout =>
        have huses : Uses source tree callback reference :=
          ⟨first, rest, body, name, binding, hparameters, hbody, hlocal, hdeclared, href⟩
        have hwithin := hargument.within.trans huses.within
        exact ⟨reference, .of_name hlead hwithin (.inl huses.isName), .reference hcallback huses,
          habout.marked hwithin huses.isName hsite⟩
    | parameter =>
        have hplain : first.kind ≠ .expressionStatement := by
          intro hkind
          rw [patternOf_eq (by simp [hkind]) (by simp [hkind]), hkind] at hpattern
          exact absurd hpattern (by simp)
        rcases hpattern with hkind | hkind
        · have hholds := (Holds.parameter hlead hargument hfirst).pattern
          exact ⟨patternOf first,
            .of_name hlead (hargument.within.trans hholds.within) (.inl (by rw [hkind]; rfl)),
            .parameter hcallback hholds (by rw [hkind]; rfl)
              fun _ hnone => absurd hnone (declared_of_plan hparameters hkind hchange),
            first, hsite, .name hkind rfl, fun hstatement => absurd hstatement hplain⟩
        · obtain ⟨leaf, hleaf, howns, hmarks, _⟩ :=
            Owns.exists_brace hlead h hcallback hfirst hkind
          exact ⟨leaf, hleaf, howns, first, hsite, hmarks,
            fun hstatement => absurd hstatement hplain⟩
    | list hlist =>
        obtain ⟨leaf, hleaf, howns, hmarks, _⟩ := Owns.exists_parenthesis hlead h hcallback hlist
        obtain ⟨hkind, _⟩ := hlead.lists callback (mem_nodes_of_within hargument.within)
          hargument.literal node hlist
        exact ⟨leaf, hleaf, howns, node, hsite, hmarks,
          fun hstatement => absurd hstatement (by rw [hkind]; simp)⟩

/-- A registration reports its call, or what its callback reports. -/
theorem Registration.diagnostics_cases {table : ScopeTable} {diagnostic : Diagnostic}
    (h : diagnostic ∈ (registration.plan table source).diagnostics) :
    diagnostic.IsAt source registration.call ∨
      ∃ callback completion, registration.callback? = some callback ∧
        diagnostic ∈ (Callback.plan table source callback completion).diagnostics := by
  have hcallback : ∀ {completion : Bool},
      diagnostic ∈ (registration.callbackPlan table source completion).diagnostics →
      ∃ callback completion, registration.callback? = some callback ∧
        diagnostic ∈ (Callback.plan table source callback completion).diagnostics := by
    intro completion h
    unfold callbackPlan at h
    split at h
    · rename_i callback hcallback
      exact ⟨callback, completion, hcallback, h⟩
    · exact absurd h List.not_mem_nil
  unfold plan at h
  split at h
  · rw [Plan.diagnostics_append, Plan.diagnostics_replace, List.nil_append] at h
    exact .inr (hcallback h)
  · rw [Plan.diagnostics_append] at h
    rcases List.mem_append.mp h with h | h
    · exact .inl (Plan.isAt_of_warn h)
    · split at h
      · exact .inr (hcallback h)
      · exact absurd h List.not_mem_nil

theorem Registered.isVisited_callback (h : Registered source tree framework registration)
    (hvisited : registration.call.isVisited = true) {callback : Node}
    (hcallback : registration.callback? = some callback) : callback.isVisited = true := by
  obtain ⟨_, list, hlist, hkind, hmem⟩ := Registration.callback_of_ofCall? h.read hcallback
  rw [isVisited_of_mem_children (mem_children_of_mem_namedChildren hmem),
    isVisited_of_mem_children (mem_children_of_child? hlist), hkind, h.kind, hvisited]
  rfl

/-- The names of a member pattern are names of a callback that is visited. -/
theorem Callback.hasName_of_member {callback first : Node} {members : List Context.Member}
    {member : Context.Member} (hargument : IsArgument tree callback)
    (hvisited : callback.isVisited = true)
    (hfirst : first ∈ callback.parameters) (hkind : (patternOf first).kind = .objectPattern)
    (hmembers : Context.Member.ofPattern? source (patternOf first) = some members)
    (hmember : member ∈ members) (hne : member.binder.text source ≠ "") :
    (build source tree).HasName callback (member.binder.text source) := by
  have hname : member.binder ∈ callback.parameterNames := by
    refine mem_parameterNames hfirst ?_
    rw [patternNames_patternOf (.inr hkind)]
    exact mem_patternNames_of_member hkind hmembers hmember
  exact (complete_build hargument.within hargument.ne_root hvisited).own _
    (mem_ownNames_of_isCallbackLiteral hargument.literal hname) hne

/-- Every diagnostic of a registration is at the beginning of a leaf that it owns. -/
theorem exists_place (hlead : tree.Leading source)
    (h : Registered source tree framework registration)
    (hvisited : registration.call.isVisited = true) {diagnostic : Diagnostic}
    (hdiagnostic : diagnostic ∈ (registration.plan (build source tree) source).diagnostics) :
    ∃ leaf node, IsLeaf tree leaf ∧ Owns source tree registration leaf ∧
      diagnostic.IsAt source node ∧ node.span.start = leaf.span.start := by
  rcases Registration.diagnostics_cases hdiagnostic with hat |
    ⟨callback, completion, hcallback, hdiagnostic⟩
  · obtain ⟨_, _, _, chain, names, _, hchain, _⟩ := Registration.ofCall?_eq_some h.read
    obtain ⟨_, hhead, _, hwithin⟩ := h.head hchain
    exact ⟨chain, registration.call, h.isLeaf_root hlead hchain, .root hchain, hat,
      hhead.start_eq hlead hwithin⟩
  · have hargument := h.isArgument hcallback
    obtain ⟨first, rest, body, node, hparameters, hbody, hreport, hat⟩ :=
      Callback.report_of_plan hdiagnostic
    have hfirst : first ∈ callback.parameters := by simp [hparameters]
    cases hreport with
    | @head name reference _ binding hlocal hdeclared href hhead =>
        have huses : Uses source tree callback reference :=
          ⟨first, rest, body, name, binding, hparameters, hbody, hlocal, hdeclared, href⟩
        have hwithin := hargument.within.trans huses.within
        exact ⟨reference, node, .of_name hlead hwithin (.inl huses.isName),
          .reference hcallback huses, hat, hhead.start_eq hlead hwithin⟩
    | list hlist =>
        obtain ⟨leaf, hleaf, howns, _, hstart⟩ := Owns.exists_parenthesis hlead h hcallback hlist
        exact ⟨leaf, node, hleaf, howns, hat, hstart⟩
    | pattern hkind =>
        obtain ⟨leaf, hleaf, howns, _, hstart⟩ := Owns.exists_brace hlead h hcallback hfirst hkind
        exact ⟨leaf, _, hleaf, howns, hat, hstart⟩
    | @binder members member hkind hmembers hmember =>
        have hholds := (Holds.parameter hlead hargument hfirst).binder hkind hmembers hmember
        have hname := kind_of_member hmembers hmember
        refine ⟨member.binder, member.binder,
          .of_name hlead (hargument.within.trans hholds.within)
            (hname.imp_left fun hkind => by rw [hkind]; rfl),
          .parameter hcallback hholds ?_ fun _ _ hne => hasName_of_member hargument
            (h.isVisited_callback hvisited hcallback) hfirst hkind hmembers hmember hne, hat, rfl⟩
        rcases hname with hname | hname <;> rw [hname] <;> rfl

end

end JestMigration
