/-
# `Proofs.Migration.Bindings` — imports and scopes meet in one binding

Two walks look at the statements at the top of a file.  The scope analysis binds
the names that they introduce; the scan for imports lists them, and asks for each
which binding its node declares.  Where lists of imported members hold nothing
else and names are identifiers (`Tree.PlainImports`), every name that the scan
lists is one that its statement introduces (`exists_lists`), and such a name is
bound in the scope of the program (`declaredIn_program`).

So the test function of an import is known by its binding and never by its name
(`MatchedBy`): what is bound to it is recognised wherever it stands, and what is
only spelled like it is left alone.
-/
import JestMigration.Proofs.Migration.TestFunction
import JestMigration.Proofs.Scope.References
import JestMigration.Proofs.Scope.Visit

namespace JestMigration

open Node ScopeTable

/-- Lists of imported members hold nothing else, imported names are identifiers with a text, and so
are the names, if they are identifiers, that a call of `require` gets. -/
structure Tree.PlainImports (source : Source) (tree : Tree) : Prop where
  members : ∀ list ∈ (root tree).nodes, list.kind = .namedImports →
    ∀ member ∈ list.namedChildren, member.kind = .importSpecifier
  imported : ∀ statement ∈ (root tree).nodes, statement.kind = .importStatement →
    ∀ entry ∈ Import.statementNames statement,
      entry.1.kind = .identifier ∧ entry.1.text source ≠ ""
  required : ∀ declarator ∈ (root tree).nodes, declarator.kind = .variableDeclarator →
    ((declarator.child? .value).bind (Import.requiredPackage? source)).isSome = true →
    ∀ name ∈ declarator.child? .name, name.kind = .identifier → name.text source ≠ ""

instance (source : Source) (tree : Tree) : Decidable (tree.PlainImports source) :=
  decidable_of_iff
    ((∀ list ∈ (root tree).nodes, list.kind = .namedImports →
        ∀ member ∈ list.namedChildren, member.kind = .importSpecifier) ∧
      (∀ statement ∈ (root tree).nodes, statement.kind = .importStatement →
        ∀ entry ∈ Import.statementNames statement,
          entry.1.kind = .identifier ∧ entry.1.text source ≠ "") ∧
      ∀ declarator ∈ (root tree).nodes, declarator.kind = .variableDeclarator →
        ((declarator.child? .value).bind (Import.requiredPackage? source)).isSome = true →
        ∀ name ∈ declarator.child? .name, name.kind = .identifier → name.text source ≠ "")
    ⟨fun ⟨h₁, h₂, h₃⟩ => ⟨h₁, h₂, h₃⟩, fun h => ⟨h.members, h.imported, h.required⟩⟩

/-! ## Names bound at the top -/

/-- The node is a name that an import, or a declaration with declarators, introduces. -/
def Node.Names (statement name : Node) : Prop :=
  statement.kind = .importStatement ∧ name ∈ statement.importNames ∨
    (statement.kind = .lexicalDeclaration ∨ statement.kind = .variableDeclaration) ∧
      name ∈ statement.declaratorNames

namespace ScopeTable

variable {source : Source} {tree : Tree} {statement name other : Node}

theorem nearest?_top (source : Source) (hmem : statement ∈ (root tree).children) :
    (build source tree).nearest? (statement.above.map Prod.fst) = some programScope := by
  rw [above_eq_lineage hmem]
  change (build source tree).nearest? [0] = some programScope
  rw [nearest?, List.findSome?_cons, (sound_build source tree).rooted]

theorem nearestFunction?_top (source : Source) (hmem : statement ∈ (root tree).children) :
    (build source tree).nearestFunction? (statement.above.map Prod.fst) = some programScope := by
  have hsound := sound_build source tree
  rw [above_eq_lineage hmem]
  change (build source tree).nearestFunction? [0] = some programScope
  rw [nearestFunction?_cons, hsound.rooted]
  simp only [isBlock_eq, hsound.program, Option.any_some]
  rfl

/-- What an import at the top introduces is introduced by nothing else: the visit goes no further
down. -/
theorem IsEntered.eq_of_import (h : IsEntered tree other) (hmem : statement ∈ (root tree).children)
    (hkind : statement.kind = .importStatement) (hname : Within statement name)
    (hother : Within other name) : other = statement := by
  obtain ⟨top, htop, hreached⟩ := h
  have hsame := Within.child_unique htop hmem (hreached.within.trans hother) hname
  subst hsame
  cases hreached with
  | self => rfl
  | step hstep _ =>
      rw [visitedChildren, if_pos hkind] at hstep
      exact absurd hstep List.not_mem_nil

theorem declaredIn_program_of_import (hmem : statement ∈ (root tree).children)
    (hkind : statement.kind = .importStatement) (hname : name ∈ statement.importNames)
    (hne : name.text source ≠ "") : (build source tree).DeclaredIn source name programScope := by
  have hentered : IsEntered tree statement := ⟨statement, hmem, .self⟩
  have hdeclares : Declares source statement name :=
    .inr (.inl (by simpa only [blockNames, hkind] using hname))
  obtain ⟨table, scope, hcalls⟩ : ∃ table scope, Calls source tree table statement scope :=
    exists_calls hentered
  obtain ⟨binding, hbinding⟩ :=
    Option.isSome_iff_exists.mp (hcalls.isSome_declaredAt? hdeclares hne)
  obtain ⟨found, hentry, htraced⟩ := (exact_build source tree).declared
    (hentered.within.trans hdeclares.within) hbinding
  refine ⟨binding, hbinding, (sound_build source tree).names.mpr ?_⟩
  have honly : ∀ {other : Node}, IsEntered tree other → Declares source other name →
      other = statement :=
    fun hother h => hother.eq_of_import hmem hkind hdeclares.within h.within
  cases htraced with
  | own hother _ hown _ =>
      rw [honly hother (.inl hown), ownNames] at hown
      simp [hkind] at hown
  | block hother _ hblock hnear =>
      rw [honly hother (.inr (.inl hblock)), nearest?_top source hmem] at hnear
      cases hnear
      exact hentry
  | hoisted hother _ hhoisted _ =>
      rw [honly hother (.inr (.inr hhoisted)), hoistedNames] at hhoisted
      simp [hkind] at hhoisted

/-- What a statement at the top names is bound in the scope of the program. -/
theorem declaredIn_program (hmem : statement ∈ (root tree).children)
    (hnames : statement.Names name) (hne : name.text source ≠ "") :
    (build source tree).DeclaredIn source name programScope := by
  rcases hnames with ⟨hkind, hname⟩ | ⟨hkind, hname⟩
  · exact declaredIn_program_of_import hmem hkind hname hne
  · obtain ⟨table, scope, hcalls⟩ : ∃ table scope, Calls source tree table statement scope :=
      exists_calls ⟨statement, hmem, .self⟩
    obtain ⟨found, hdeclared, ⟨_, hnear⟩ | ⟨_, hnear⟩⟩ := hcalls.exists_declaredIn hkind hname hne
    · rw [nearest?_top source hmem] at hnear
      cases hnear
      exact hdeclared
    · rw [nearestFunction?_top source hmem] at hnear
      cases hnear
      exact hdeclared

end ScopeTable

/-! ## Names that the scan lists -/

namespace Import

variable {source : Source} {tree : Tree} {table : ScopeTable} {statement name : Node}
  {style : ImportStyle} {entry : Import} {text : String}

theorem mem_importedNames_of_member {list member : Node} (hlist : list.kind = .namedImports)
    (hmember : member ∈ list.namedChildren) (hkind : member.kind = .importSpecifier)
    (himported : member.importedAs? = some name) (hname : name.kind = .identifier) :
    name ∈ list.importedNames := by
  refine mem_importedNames hmember (.inr (.inl hlist)) ?_
  rw [importedNames]
  simp only [hkind, himported, Callback.patternNames_identifier hname, List.mem_singleton]

theorem mem_importedNames_of_clause (hplain : tree.PlainImports source) {part : Node}
    (hpart : Within (root tree) part) (h : (name, style) ∈ clauseNames part)
    (hname : name.kind = .identifier) : name ∈ part.importedNames := by
  by_cases hstyle : style = .named
  · unfold clauseNames at h
    split at h
    · cases List.mem_singleton.mp h
      simp at hstyle
    · split at h
      · cases List.mem_singleton.mp h
        simp at hstyle
      · exact absurd h List.not_mem_nil
    · rename_i hkind
      obtain ⟨found, hfound, heq⟩ := List.mem_map.mp h
      cases heq
      obtain ⟨member, hmember, himported⟩ := List.mem_filterMap.mp hfound
      exact mem_importedNames_of_member hkind hmember
        (hplain.members part (mem_nodes_of_within hpart) hkind member hmember) himported hname
    · exact absurd h List.not_mem_nil
  · exact mem_importedNames_of_clauseNames h hstyle

theorem mem_importNames_of_statement (hplain : tree.PlainImports source)
    (hstatement : Within (root tree) statement) (hkind : statement.kind = .importStatement)
    (h : (name, style) ∈ statementNames statement) : name ∈ statement.importNames := by
  have hname := (hplain.imported statement (mem_nodes_of_within hstatement) hkind _ h).1
  obtain ⟨clause, hclause, h⟩ := List.mem_flatMap.mp h
  obtain ⟨hnamed, hclauseKind⟩ := List.mem_filter.mp hclause
  obtain ⟨part, hpart, h⟩ := List.mem_flatMap.mp h
  have hwithin := (hstatement.trans (within_of_mem_namedChildren hnamed)).trans
    (within_of_mem_namedChildren hpart)
  exact mem_importNames_iff.mpr ⟨clause, hnamed,
    mem_importedNames hpart (.inl (beq_iff_eq.mp hclauseKind))
      (mem_importedNames_of_clause hplain hwithin h hname)⟩

/-- The entry stands for a name with the given text that the statement introduces. -/
structure Lists (table : ScopeTable) (source : Source) (statement : Node) (entry : Import)
    (text : String) (name : Node) : Prop where
  names : statement.Names name
  spelled : name.text source = text
  nonempty : name.text source ≠ ""
  binding : entry.binding? = table.declaredAt? name

theorem exists_lists_of_declarators (hplain : tree.PlainImports source)
    (hstatement : Within (root tree) statement)
    (hkind : statement.kind = .lexicalDeclaration ∨ statement.kind = .variableDeclaration)
    (h : entry ∈ statement.declarators.filterMap
      (ofDeclarator? table source statement (statement.declarators.length == 1)))
    (hlocal : entry.localName? = some text) :
    ∃ name, Lists table source statement entry text name := by
  obtain ⟨declarator, hmem, hof⟩ := List.mem_filterMap.mp h
  obtain ⟨hnamed, hdeclarator⟩ := List.mem_filter.mp hmem
  have hwithin := hstatement.trans (within_of_mem_namedChildren hnamed)
  unfold ofDeclarator? at hof
  split at hof
  · rename_i package name hvalue hname
    split at hof
    · rename_i hidentifier
      cases hof
      refine ⟨name, .inr ⟨hkind, List.mem_flatMap.mpr ⟨declarator, hmem, ?_⟩⟩,
        Option.some.inj hlocal, ?_, rfl⟩
      · simp only [namesAt, hname, Callback.patternNames_identifier hidentifier,
          List.mem_singleton]
      · exact hplain.required declarator (mem_nodes_of_within hwithin) (beq_iff_eq.mp hdeclarator)
          (by rw [hvalue]; rfl) name hname hidentifier
    · cases hof
      exact absurd hlocal (by simp)
  · exact absurd hof (by simp)

/-- Every name that the scan lists is one that its statement introduces. -/
theorem exists_lists (hplain : tree.PlainImports source) (hstatement : Within (root tree) statement)
    (h : entry ∈ ofStatement table source statement) (hlocal : entry.localName? = some text) :
    ∃ name, Lists table source statement entry text name := by
  unfold ofStatement at h
  split at h <;> rename_i hkind
  · unfold ofImportStatement at h
    split at h
    · exact absurd h List.not_mem_nil
    · split at h
      · rw [List.mem_singleton.mp h] at hlocal
        exact absurd hlocal (by simp [sideEffect])
      · obtain ⟨⟨name, style⟩, hname, rfl⟩ := List.mem_map.mp h
        have hin := mem_importNames_of_statement hplain hstatement hkind hname
        have htext := (hplain.imported statement (mem_nodes_of_within hstatement) hkind _ hname).2
        exact ⟨name, .inl ⟨hkind, hin⟩, Option.some.inj hlocal, htext, rfl⟩
  · exact exists_lists_of_declarators hplain hstatement (.inl hkind) h hlocal
  · exact exists_lists_of_declarators hplain hstatement (.inr hkind) h hlocal
  · unfold ofExpressionStatement? at h
    split at h
    · obtain ⟨package, _, rfl⟩ := Option.map_eq_some_iff.mp (Option.mem_toList.mp h)
      exact absurd hlocal (by simp [sideEffect])
    · exact absurd h (by simp)
  · exact absurd h List.not_mem_nil

/-- A name that the scan lists has a binding, which has that name and is one of the program. -/
theorem exists_program_binding (hplain : tree.PlainImports source)
    (h : entry ∈ scan (build source tree) source (root tree))
    (hlocal : entry.localName? = some text) :
    ∃ binding, entry.binding? = some binding ∧
      (build source tree).bindings[binding]? = some ⟨text, programScope⟩ := by
  obtain ⟨statement, hnamed, hentry⟩ := List.mem_flatMap.mp h
  have hmem := mem_children_of_mem_namedChildren hnamed
  obtain ⟨name, hlists⟩ := exists_lists hplain (.of_mem_children hmem) hentry hlocal
  obtain ⟨binding, hdeclared, hbound⟩ :=
    declaredIn_program hmem hlists.names hlists.nonempty
  refine ⟨binding, hlists.binding.trans hdeclared, ?_⟩
  rw [← hlists.spelled]
  exact (sound_build source tree).names.mp hbound

end Import

/-! ## The roots of the framework -/

namespace Framework

variable {imports : List Import} {options : Options} {framework : Framework} {entry : Import}
  {root : FrameworkRoot}

theorem rootOf?_eq_some (h : rootOf? entry = some root) :
    entry.localName? = some root.name ∧ root.binding? = entry.binding? := by
  unfold rootOf? at h
  split at h
  case h_4 | h_5 => exact absurd h (by simp)
  all_goals
    obtain ⟨name, hname, rfl⟩ := Option.map_eq_some_iff.mp h
    exact ⟨hname, rfl⟩

/-- Where an import gives a root, all roots are given by imports. -/
theorem mem_roots_iff (h : detect? imports options = some framework) (hentry : entry ∈ imports)
    (hpackage : entry.package = package) (hroot : rootOf? entry = some root)
    {found : FrameworkRoot} : found ∈ framework.roots ↔
      ∃ entry ∈ imports, entry.package = package ∧ rootOf? entry = some found := by
  have hown : entry ∈ imports.filter fun entry => entry.package == package :=
    List.mem_filter.mpr ⟨hentry, beq_iff_eq.mpr hpackage⟩
  have hmem := List.mem_filterMap.mpr ⟨entry, hown, hroot⟩
  simp only [detect?] at h
  split at h
  · exact absurd h (by simp)
  · cases h
    simp only
    split
    · rename_i hnone
      rw [hnone] at hmem
      exact absurd hmem List.not_mem_nil
    · simp [List.mem_filterMap, and_assoc]

end Framework

/-- The name is matched by its binding alone, one of the program: what resolves to the binding is
recognised, whatever its scope, and a call on it is a registration; a call on a name that is only
spelled like it is none. -/
structure MatchedBy (table : ScopeTable) (source : Source) (framework : Framework) (name : String)
    (binding : BindingId) : Prop where
  bound : table.bindings[binding]? = some ⟨name, programScope⟩
  root : ⟨name, some binding⟩ ∈ framework.roots
  recognised : ∀ node, table.resolve? source node = some binding →
    framework.refersTo table (node.text source) (table.resolve? source node) = true
  registered : ∀ {call callee chain : Node} {arguments : List Node} {names : List String},
    call.child? .function = some callee → call.arguments? = some arguments →
    callee.memberChain? source = some (chain, names) →
    table.resolve? source chain = some binding →
    ∃ registration, Registration.ofCall? table source framework call = some registration
  shadowed : ∀ {call callee chain : Node} {names : List String},
    call.child? .function = some callee → callee.memberChain? source = some (chain, names) →
    chain.text source = name → table.resolve? source chain ≠ some binding →
    Registration.ofCall? table source framework call = none

section

variable {source : Source} {tree : Tree} {framework : Framework} {name : String}
  {binding : BindingId}

/-- Where every root has a binding of its name in the program, each is matched by its binding. -/
theorem matchedBy_of_bound
    (hroots : ∀ root ∈ framework.roots, ∃ binding, root.binding? = some binding ∧
      (build source tree).bindings[binding]? = some ⟨root.name, programScope⟩)
    (hroot : ⟨name, some binding⟩ ∈ framework.roots) :
    MatchedBy (build source tree) source framework name binding := by
  have hsound := sound_build source tree
  obtain ⟨own, hown, hbound⟩ := hroots _ hroot
  cases hown
  have hrecognised : ∀ text, framework.refersTo (build source tree) text (some binding) = true :=
    fun _ => List.any_eq_true.mpr ⟨_, hroot, by simp⟩
  refine ⟨hbound, hroot, ?_, ?_, ?_⟩
  · intro node hmeans
    rw [hmeans]
    exact hrecognised _
  · intro call callee chain arguments names hcallee harguments hchain hmeans
    simp only [Registration.ofCall?, hcallee, harguments, hchain, hmeans, hrecognised, if_true]
    exact ⟨_, rfl⟩
  · intro call callee chain names hcallee hchain hspelled hmeans
    cases hof : Registration.ofCall? (build source tree) source framework call with
    | none => rfl
    | some registration =>
        exfalso
        obtain ⟨_, hcallee', _, chain', names', _, hchain', hrefers, _⟩ :=
          Registration.ofCall?_eq_some hof
        obtain rfl := Option.some.inj (hcallee.symm.trans hcallee')
        obtain ⟨rfl, rfl⟩ := Prod.mk.inj (Option.some.inj (hchain.symm.trans hchain'))
        obtain ⟨root, hmem, hmatch⟩ := List.any_eq_true.mp hrefers
        obtain ⟨other, hother, hnamed⟩ := hroots root hmem
        simp only [hother, beq_iff_eq] at hmatch
        -- Both bindings have the name of the chain in the program, where a name is bound once.
        obtain ⟨scope, hfound⟩ := hsound.exists_of_resolve? hmatch
        rw [hnamed] at hfound
        obtain ⟨hname, _⟩ := Binding.mk.inj (Option.some.inj hfound)
        rw [hname, hspelled] at hnamed
        have hsame := hsound.names.mpr hnamed
        rw [hsound.names.mpr hbound] at hsame
        exact hmeans (hmatch.trans hsame.symm)

/-- Every import that binds a name knows the binding that the scope analysis has for it: one with
that name in the program.  So wherever an import gives a root of the framework, the root is matched
by its binding. -/
theorem imports_matched_by_binding (source : Source) (tree : Tree)
    (hplain : tree.PlainImports source) :
    (∀ entry ∈ Import.scan (build source tree) source (root tree),
      ∀ name, entry.localName? = some name →
        ∃ binding, entry.binding? = some binding ∧
          (build source tree).bindings[binding]? = some ⟨name, programScope⟩) ∧
    ∀ options framework,
      Framework.detect? (Import.scan (build source tree) source (root tree)) options =
        some framework →
      ∀ entry ∈ Import.scan (build source tree) source (root tree),
        entry.package = Framework.package →
        ∀ found, Framework.rootOf? entry = some found →
          ∃ binding, entry.binding? = some binding ∧ found.binding? = some binding ∧
            MatchedBy (build source tree) source framework found.name binding := by
  have hbound : ∀ entry ∈ Import.scan (build source tree) source (root tree),
      ∀ name, entry.localName? = some name → ∃ binding, entry.binding? = some binding ∧
        (build source tree).bindings[binding]? = some ⟨name, programScope⟩ :=
    fun _ hentry _ hlocal => Import.exists_program_binding hplain hentry hlocal
  refine ⟨hbound, ?_⟩
  intro options framework hdetect entry hentry hpackage found hfound
  have hroots : ∀ root ∈ framework.roots, ∃ binding, root.binding? = some binding ∧
      (build source tree).bindings[binding]? = some ⟨root.name, programScope⟩ := by
    intro other hother
    obtain ⟨origin, horigin, _, hof⟩ :=
      (Framework.mem_roots_iff hdetect hentry hpackage hfound).mp hother
    obtain ⟨hlocal, hsame⟩ := Framework.rootOf?_eq_some hof
    rw [hsame]
    exact hbound origin horigin other.name hlocal
  obtain ⟨hlocal, hsame⟩ := Framework.rootOf?_eq_some hfound
  obtain ⟨binding, hbinding, _⟩ := hbound entry hentry found.name hlocal
  have hfoundBinding := hsame.trans hbinding
  refine ⟨binding, hbinding, hfoundBinding, matchedBy_of_bound hroots ?_⟩
  have hmem := (Framework.mem_roots_iff hdetect hentry hpackage hfound).mpr
    ⟨entry, hentry, hpackage, hfound⟩
  rwa [← hfoundBinding]

end

namespace Reused

open Sample (node token name quoted statement)

/-- The test function under two names, one of which is bound again by a function. -/
def source : Source where
  text := "import test, \x7ba as b\x7d from 'ava';\nconst r = require('ava');\n" ++
    "function f(test) \x7b\n  test();\n\x7d\nr();\n"

/-- The tree of the file. -/
def tree : Tree :=
  node .program 0 96 none
    [ node .importStatement 0 33 none
        [ token "import" 0 6,
          node .importClause 7 21 none
            [ name 7 11 none, token "," 11 12,
              node .namedImports 13 21 none
                [ token "\x7b" 13 14,
                  node .importSpecifier 14 20 none
                    [name 14 15 (some .name), token "as" 16 18, name 19 20 (some .renamed)],
                  token "\x7d" 20 21 ] ],
          token "from" 22 26, quoted 27 32 (some .source), token ";" 32 33 ],
      node .lexicalDeclaration 34 59 none
        [ token "const" 34 39,
          node .variableDeclarator 40 58 none
            [ name 40 41 (some .name), token "=" 42 43,
              node .callExpression 44 58 (some .value)
                [ name 44 51 (some .function),
                  node .arguments 51 58 (some .arguments)
                    [token "(" 51 52, quoted 52 57 none, token ")" 57 58] ] ],
          token ";" 58 59 ],
      node .functionDeclaration 60 90 none
        [ .node ⟨.function, false, ⟨60, 68⟩, none⟩ [], name 69 70 (some .name),
          node (.other "formal_parameters") 70 76 (some .parameters)
            [token "(" 70 71, name 71 75 none, token ")" 75 76],
          node .statementBlock 77 90 (some .body)
            [ token "\x7b" 77 78, statement 81 88 (name 81 85 (some .function)) [],
              token "\x7d" 89 90 ] ],
      statement 91 95 (name 91 92 (some .function)) [] ]

example : tree.WellNested source ∧ tree.Trimmed source ∧ tree.Readable source ∧
    tree.Lexical source := by
  decide +kernel

/-- The call in the function is spelled like the test function and is no registration, the one after
it is. -/
theorem imports_matched_by_binding_reused :
    tree.PlainImports source ∧ ∃ framework,
      Framework.detect? (Import.scan (build source tree) source (root tree)) {} =
        some framework ∧
      (∃ entry ∈ Import.scan (build source tree) source (root tree),
        entry.localName? = some "b" ∧ ∃ binding, entry.binding? = some binding ∧
          (build source tree).bindings[binding]? = some ⟨"b", programScope⟩) ∧
      (∃ call ∈ Migration.calls (root tree), call.span.start = 81 ∧
        Registration.ofCall? (build source tree) source framework call = none) ∧
      ∃ call ∈ Migration.calls (root tree), call.span.start = 91 ∧
        ∃ registration,
          Registration.ofCall? (build source tree) source framework call = some registration := by
  have hplain : tree.PlainImports source := by decide +kernel
  have hsome : (Framework.detect? (Import.scan (build source tree) source (root tree)) {}).isSome =
      true := by
    decide +kernel
  obtain ⟨framework, hdetect⟩ := Option.isSome_iff_exists.mp hsome
  obtain ⟨hbound, hmatched⟩ := imports_matched_by_binding source tree hplain
  have hentries : ∀ text ∈ ["test", "b", "r"],
      ∃ entry ∈ Import.scan (build source tree) source (root tree),
        entry.localName? = some text ∧ entry.package = Framework.package ∧
        (text ≠ "b" → Framework.rootOf? entry = some ⟨text, entry.binding?⟩) ∧
        (text = "test" → ∃ call ∈ Migration.calls (root tree), call.span.start = 81 ∧
          ((call.child? .function).any fun callee => (callee.memberChain? source).any fun chain =>
            chain.1.text source == "test" &&
              (build source tree).resolve? source chain.1 != entry.binding?) = true) ∧
        (text = "r" → ∃ call ∈ Migration.calls (root tree), call.span.start = 91 ∧
          call.arguments?.isSome = true ∧
          ((call.child? .function).any fun callee => (callee.memberChain? source).any fun chain =>
            (build source tree).resolve? source chain.1 == entry.binding?) = true) := by
    decide +kernel
  refine ⟨hplain, framework, hdetect, ?_, ?_, ?_⟩
  · obtain ⟨entry, hentry, hlocal, _⟩ := hentries "b" (by decide)
    exact ⟨entry, hentry, hlocal, hbound entry hentry "b" hlocal⟩
  · obtain ⟨entry, hentry, _, hpackage, hroot, hcall, _⟩ := hentries "test" (by decide)
    obtain ⟨call, hmem, hstart, hchain⟩ := hcall rfl
    simp only [Option.any_eq_true, Bool.and_eq_true, beq_iff_eq, bne_iff_ne] at hchain
    obtain ⟨callee, hcallee, ⟨chain, names⟩, hchain, hspelled, hmeans⟩ := hchain
    obtain ⟨binding, hbinding, _, hmatch⟩ :=
      hmatched {} framework hdetect entry hentry hpackage _ (hroot (by decide))
    exact ⟨call, hmem, hstart, hmatch.shadowed hcallee hchain hspelled (hbinding ▸ hmeans)⟩
  · obtain ⟨entry, hentry, _, hpackage, hroot, _, hcall⟩ := hentries "r" (by decide)
    obtain ⟨call, hmem, hstart, harguments, hchain⟩ := hcall rfl
    simp only [Option.any_eq_true, beq_iff_eq] at hchain
    obtain ⟨callee, hcallee, ⟨chain, names⟩, hchain, hmeans⟩ := hchain
    obtain ⟨arguments, harguments⟩ := Option.isSome_iff_exists.mp harguments
    obtain ⟨binding, hbinding, _, hmatch⟩ :=
      hmatched {} framework hdetect entry hentry hpackage _ (hroot (by decide))
    exact ⟨call, hmem, hstart, hmatch.registered hcallee harguments hchain (hmeans.trans hbinding)⟩

end Reused

end JestMigration
