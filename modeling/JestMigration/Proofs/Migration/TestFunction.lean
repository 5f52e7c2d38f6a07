/-
# `Proofs.Migration.TestFunction` — the name of the test function in a registration

A call is a registration because of the name that its callee begins with.  The
name is bound by an import at the top of the file, or at least by nothing below
the top.  So it is no reference to a context (`Registered.not_uses`), and it
stands in no parameter (`Registered.not_holds`).  A call has one such name, and
no other call has it (`Registered.eq_of_root`).
-/
import JestMigration.Proofs.Callback.Holding
import JestMigration.Proofs.Migration.Marks

namespace JestMigration

open Node ScopeTable

/-! ## The name of the test function -/

namespace Import

variable {table : ScopeTable} {source : Source} {statement name : Node} {style : ImportStyle}
  {entry : Import}

theorem mem_importedNames {part child : Node} (h : child ∈ part.namedChildren)
    (hkind : part.kind = .importClause ∨ part.kind = .namedImports ∨ part.kind = .namespaceImport)
    (hname : name ∈ child.importedNames) : name ∈ part.importedNames := by
  rw [importedNames]
  rcases hkind with hkind | hkind | hkind <;> simp only [hkind] <;>
    exact List.mem_flatMap.mpr
      ⟨⟨child, h⟩, List.mem_reverse.mpr (List.mem_attach _ _), hname⟩

theorem mem_importedNames_self (hkind : name.kind = .identifier) : name ∈ name.importedNames := by
  rw [importedNames]
  simp only [hkind, Callback.patternNames_identifier hkind, List.mem_singleton]

/-- The name in a part of an import clause that is not a list. -/
theorem mem_importedNames_of_clauseNames {part : Node} (h : (name, style) ∈ clauseNames part)
    (hstyle : style ≠ .named) : name ∈ part.importedNames := by
  unfold clauseNames at h
  split at h
  · rename_i hkind
    cases List.mem_singleton.mp h
    exact mem_importedNames_self hkind
  · rename_i hkind
    split at h
    · rename_i found hfound
      cases List.mem_singleton.mp h
      have hidentifier := List.find?_some hfound
      exact mem_importedNames (List.mem_of_find?_eq_some hfound) (.inr (.inr hkind))
        (mem_importedNames_self (beq_iff_eq.mp hidentifier))
    · exact absurd h List.not_mem_nil
  · obtain ⟨_, _, heq⟩ := List.mem_map.mp h
    exact absurd (congrArg Prod.snd heq).symm hstyle
  · exact absurd h List.not_mem_nil

theorem mem_importNames_of_statementNames (h : (name, style) ∈ statementNames statement)
    (hstyle : style ≠ .named) : name ∈ statement.importNames := by
  obtain ⟨clause, hclause, h⟩ := List.mem_flatMap.mp h
  obtain ⟨hnamed, hclauseKind⟩ := List.mem_filter.mp hclause
  obtain ⟨part, hpart, h⟩ := List.mem_flatMap.mp h
  exact mem_importNames_iff.mpr ⟨clause, hnamed,
    mem_importedNames hpart (.inl (beq_iff_eq.mp hclauseKind))
      (mem_importedNames_of_clauseNames h hstyle)⟩

theorem exists_name_of_declarators {binding : BindingId}
    (h : entry ∈ statement.declarators.filterMap
      (ofDeclarator? table source statement (statement.declarators.length == 1)))
    (hbinding : entry.binding? = some binding) :
    ∃ name ∈ statement.declaratorNames, table.declaredAt? name = some binding := by
  obtain ⟨declarator, hmem, hof⟩ := List.mem_filterMap.mp h
  unfold ofDeclarator? at hof
  split at hof
  · rename_i package name _ hname
    split at hof
    · rename_i hidentifier
      cases hof
      refine ⟨name, List.mem_flatMap.mpr ⟨declarator, hmem, ?_⟩, hbinding⟩
      simp only [namesAt, hname, Callback.patternNames_identifier hidentifier, List.mem_singleton]
    · cases hof
      exact absurd hbinding (by simp)
  · exact absurd hof (by simp)

/-- The binding of the test function stands for a name that the statement introduces. -/
theorem exists_name {root : FrameworkRoot} {binding : BindingId}
    (h : entry ∈ ofStatement table source statement) (hroot : Framework.rootOf? entry = some root)
    (hbinding : root.binding? = some binding) :
    ∃ name, Declares source statement name ∧ table.declaredAt? name = some binding := by
  have hentry : entry.binding? = some binding ∧ entry.style ≠ .named := by
    unfold Framework.rootOf? at hroot
    split at hroot <;> rename_i hstyle
    case h_4 | h_5 => exact absurd hroot (by simp)
    all_goals
      obtain ⟨_, _, rfl⟩ := Option.map_eq_some_iff.mp hroot
      exact ⟨hbinding, by simp [hstyle]⟩
  obtain ⟨hbinding, hstyle⟩ := hentry
  unfold ofStatement at h
  split at h <;> rename_i hkind
  · unfold ofImportStatement at h
    split at h
    · exact absurd h List.not_mem_nil
    · split at h
      · rw [List.mem_singleton.mp h] at hbinding
        exact absurd hbinding (by simp [sideEffect])
      · obtain ⟨⟨name, style⟩, hname, rfl⟩ := List.mem_map.mp h
        refine ⟨name, .inr (.inl ?_), hbinding⟩
        simp only [blockNames, hkind]
        exact mem_importNames_of_statementNames hname hstyle
  · obtain ⟨name, hname, hdeclared⟩ := exists_name_of_declarators h hbinding
    exact ⟨name, .inr (.inl (by simpa only [blockNames, hkind] using hname)), hdeclared⟩
  · obtain ⟨name, hname, hdeclared⟩ := exists_name_of_declarators h hbinding
    exact ⟨name, .inr (.inr (by simpa only [hoistedNames, hkind] using hname)), hdeclared⟩
  · unfold ofExpressionStatement? at h
    split at h
    · obtain ⟨package, _, rfl⟩ := Option.map_eq_some_iff.mp (Option.mem_toList.mp h)
      exact absurd hbinding (by simp [sideEffect])
    · exact absurd h (by simp)
  · exact absurd h List.not_mem_nil

theorem ofStatement_of_isCallbackLiteral (h : statement.kind.isCallbackLiteral = true) :
    ofStatement table source statement = [] := by
  unfold ofStatement
  split <;> simp_all [Kind.isCallbackLiteral]

end Import

namespace Framework

variable {imports : List Import} {options : Options} {framework : Framework}

theorem exists_import_of_root (h : detect? imports options = some framework)
    {root : FrameworkRoot} (hroot : root ∈ framework.roots) {binding : BindingId}
    (hbinding : root.binding? = some binding) : ∃ entry ∈ imports, rootOf? entry = some root := by
  simp only [detect?] at h
  split at h
  · exact absurd h (by simp)
  · cases h
    simp only at hroot
    split at hroot
    · rw [List.mem_singleton.mp hroot] at hbinding
      exact absurd hbinding (by simp)
    · obtain ⟨entry, hentry, hof⟩ := List.mem_filterMap.mp hroot
      exact ⟨entry, (List.mem_filter.mp hentry).1, hof⟩

/-- A name that refers to the test function has the binding of an import, or one of the program if
it has any. -/
theorem refersTo_cases {table : ScopeTable} {name : String} {binding? : Option BindingId}
    (h : framework.refersTo table name binding? = true) :
    (∃ root ∈ framework.roots, ∃ binding, root.binding? = some binding ∧
      binding? = some binding) ∨
    ∀ binding, binding? = some binding →
      ∃ text, table.bindings[binding]? = some ⟨text, programScope⟩ := by
  obtain ⟨root, hroot, hmatch⟩ := List.any_eq_true.mp h
  split at hmatch
  · rename_i binding hbinding
    exact .inl ⟨root, hroot, binding, hbinding, by simpa using hmatch⟩
  · refine .inr ?_
    rintro binding rfl
    simp only [Option.all_some, Bool.and_eq_true, beq_iff_eq, Option.any_eq_true] at hmatch
    obtain ⟨_, ⟨text, scope⟩, hentry, rfl⟩ := hmatch
    exact ⟨text, hentry⟩

end Framework

/-! ## Registrations -/

/-- The call stands in the tree and is read as the registration. -/
structure Registered (source : Source) (tree : Tree) (framework : Framework)
    (registration : Registration) : Prop where
  within : Within (root tree) registration.call
  kind : registration.call.kind = .callExpression
  read : Registration.ofCall? (build source tree) source framework registration.call =
    some registration

theorem Migration.registered_of_mem {source : Source} {tree : Tree} {framework : Framework}
    {registration : Registration}
    (h : registration ∈ registrations (build source tree) source framework (root tree)) :
    Registered source tree framework registration := by
  obtain ⟨call, hcall, hof⟩ := List.mem_filterMap.mp h
  obtain ⟨hmem, hkind⟩ := List.mem_filter.mp hcall
  have hsame := (Registration.ofCall?_eq_some hof).1
  subst hsame
  exact ⟨within_of_mem_nodes hmem, by simpa using hkind, hof⟩

namespace Registered

variable {source : Source} {tree : Tree} {framework : Framework} {a b : Registration}
  {callback : Node}

theorem eq_of_call (ha : Registered source tree framework a)
    (hb : Registered source tree framework b) (h : a.call = b.call) : a = b := by
  have hread := ha.read
  rw [h, hb.read] at hread
  exact (Option.some.inj hread).symm

theorem isArgument (h : Registered source tree framework a)
    (hcallback : a.callback? = some callback) : IsArgument tree callback := by
  obtain ⟨hliteral, list, hlist, hkind, hmem⟩ := Registration.callback_of_ofCall? h.read hcallback
  have hchild := mem_children_of_mem_namedChildren hmem
  exact ⟨(h.within.child (mem_children_of_child? hlist)).child hchild, hliteral, list, hchild,
    hkind⟩

/-- A callback belongs to one call. -/
theorem eq_of_callback (ha : Registered source tree framework a)
    (hb : Registered source tree framework b) (hcallback : a.callback? = some callback)
    (hcallback' : b.callback? = some callback) : a = b := by
  obtain ⟨_, list, hlist, _, hmem⟩ := Registration.callback_of_ofCall? ha.read hcallback
  obtain ⟨_, other, hother, _, hmem'⟩ := Registration.callback_of_ofCall? hb.read hcallback'
  have hparent := parent?_of_mem_children (mem_children_of_mem_namedChildren hmem)
  rw [parent?_of_mem_children (mem_children_of_mem_namedChildren hmem')] at hparent
  cases hparent
  have hcall := parent?_of_mem_children (mem_children_of_child? hlist)
  rw [parent?_of_mem_children (mem_children_of_child? hother)] at hcall
  exact ha.eq_of_call hb (Option.some.inj hcall).symm

/-- The callee, and the call with it, begins with the name of the test function. -/
theorem head (h : Registered source tree framework a) {chain : Node} {names : List String}
    (hchain : a.callee.memberChain? source = some (chain, names)) :
    Head chain a.callee ∧ Head chain a.call ∧ chain.kind = .identifier ∧
      Within (root tree) chain := by
  obtain ⟨_, hcallee, _⟩ := Registration.ofCall?_eq_some h.read
  obtain ⟨hhead, hin, hkind⟩ := Head.of_memberChain? hchain
  exact ⟨hhead, hhead.step (.inr (headOf?_of_child? h.kind hcallee)), hkind,
    (h.within.child (mem_children_of_child? hcallee)).trans hin⟩

/-- Between the callee and the name of the test function there is no call. -/
theorem between_memberChain? {source : Source} {chain mid : Node} {names : List String}
    {node : Node} (h : node.memberChain? source = some (chain, names)) (hmid : Within node mid)
    (hbelow : Within mid chain) : mid.kind ≠ .callExpression := by
  unfold memberChain? at h
  split at h
  · rename_i hkind
    cases h
    rw [hbelow.antisymm hmid, hkind]
    simp
  · rename_i hkind
    split at h
    · rename_i object name hobject _
      split at h
      · rename_i root links hlinks
        cases h
        have hmem := mem_children_of_child? hobject
        have hlt := size_lt_of_mem_children hmem
        obtain ⟨_, hin, _⟩ := Head.of_memberChain? hlinks
        rcases hmid.between_child hmem hin hbelow with rfl | hdown
        · rw [hkind]
          simp
        · exact between_memberChain? hlinks hdown hbelow
      · exact absurd h (by simp)
    · exact absurd h (by simp)
  · exact absurd h (by simp)
termination_by node.tree.size

/-- The name of the test function is in the callee of one call. -/
theorem eq_of_root (ha : Registered source tree framework a)
    (hb : Registered source tree framework b) {chain : Node} {names names' : List String}
    (hchain : a.callee.memberChain? source = some (chain, names))
    (hchain' : b.callee.memberChain? source = some (chain, names')) : a = b := by
  have hdown : ∀ {outer inner : Registration} {names : List String},
      Registered source tree framework outer → Registered source tree framework inner →
      outer.callee.memberChain? source = some (chain, names) →
      Within inner.call chain → Within outer.call inner.call → inner.call = outer.call := by
    intro outer inner names houter hinner hchain hbelow hin
    obtain ⟨_, hcallee, _⟩ := Registration.ofCall?_eq_some houter.read
    obtain ⟨_, hroot, _⟩ := Head.of_memberChain? hchain
    rcases hin.between_child (mem_children_of_child? hcallee) hroot hbelow with heq | hdeep
    · exact heq
    · exact absurd hinner.kind (between_memberChain? hchain hdeep hbelow)
  obtain ⟨_, hhead, _, hwithin⟩ := ha.head hchain
  obtain ⟨_, hhead', _⟩ := hb.head hchain'
  have hbelow := (hhead.within hwithin).2
  have hbelow' := (hhead'.within hwithin).2
  rcases ha.within.total hb.within hbelow hbelow' with hin | hin
  · exact ha.eq_of_call hb (hdown ha hb hchain hbelow' hin).symm
  · exact ha.eq_of_call hb (hdown hb ha hchain' hbelow hin)

/-- The name of the test function is no part of a parameter. -/
theorem not_holds (h : Registered source tree framework a) {chain : Node} {names : List String}
    (hchain : a.callee.memberChain? source = some (chain, names))
    (hliteral : callback.kind.isCallbackLiteral = true) : ¬ Callback.Holds callback chain := by
  intro hholds
  obtain ⟨_, hhead, hkind, hwithin⟩ := h.head hchain
  have hbelow := (hhead.within hwithin).2
  rcases hbelow.last with heq | ⟨parent, hmem, hparent⟩
  · rw [heq, h.kind] at hkind
    exact absurd hkind (by simp)
  have hdown := Within.of_mem_children hmem
  have hne : parent ≠ chain := by
    rintro rfl
    exact absurd (id_bounds_of_mem_children hmem).1 (Nat.lt_irrefl _)
  have hup : Within callback parent := by
    rcases hholds.within.of_child hmem with heq | hup
    · exact absurd heq.symm hholds.ne
    · exact hup
  have hpart : parent.kind.isCallbackLiteral = true ∨ parent.kind.isParameterPart = true := by
    rcases hholds.between hup hdown with rfl | heq | hpart
    · exact .inl hliteral
    · exact absurd heq hne
    · exact .inr hpart
  rcases hhead.between hwithin hparent hdown with heq | hmember | hcall
  · exact hne heq
  · rw [hmember] at hpart
    exact absurd hpart (by decide)
  · rw [hcall] at hpart
    exact absurd hpart (by decide)

/-- The name of the test function is no reference to a context. -/
theorem not_uses (hlead : tree.Leading source) {options : Options}
    (hdetect : Framework.detect? (Import.scan (build source tree) source (Node.root tree)) options =
      some framework)
    (h : Registered source tree framework a) {chain : Node} {names : List String}
    (hchain : a.callee.memberChain? source = some (chain, names))
    (hcallback : IsArgument tree callback) : ¬ Callback.Uses source tree callback chain := by
  intro huses
  obtain ⟨binding, hresolve, hbound⟩ := huses.exists_binding hlead hcallback
  obtain ⟨_, _, _, found, _, _, hfound, hrefers, _⟩ := Registration.ofCall?_eq_some h.read
  rw [hchain] at hfound
  cases hfound
  rcases Framework.refersTo_cases hrefers with ⟨root, hroot, imported, himported, hsame⟩ | hprogram
  · rw [hresolve] at hsame
    cases hsame
    obtain ⟨entry, hentry, hof⟩ := Framework.exists_import_of_root hdetect hroot himported
    obtain ⟨statement, hnamed, hstatement⟩ := List.mem_flatMap.mp hentry
    obtain ⟨name, hdeclares, hdeclared⟩ := Import.exists_name hstatement hof himported
    have hmem := mem_children_of_mem_namedChildren hnamed
    have htop := Within.of_mem_children hmem
    -- The import would be below the callback, where only the callback itself can be.
    have hin := hcallback.within_of_declares htop hdeclares
      (hbound.within_of_declaredAt? hcallback (htop.trans hdeclares.within) hdeclared)
    rcases hin.of_child hmem with rfl | hover
    · rw [Import.ofStatement_of_isCallbackLiteral hcallback.literal] at hstatement
      exact absurd hstatement List.not_mem_nil
    · exact hcallback.ne_root (hover.antisymm hcallback.within)
  · obtain ⟨text, hentry⟩ := hprogram binding hresolve
    exact hbound.scope_ne hcallback hentry

end Registered

end JestMigration
