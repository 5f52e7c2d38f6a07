/-
# `Proofs.Migration.Detection` — which files are migrated

A file is left alone unless one of its top-level statements brings the framework
in.  `Node.Introduces` says what such a statement looks like, without reference
to how it is searched for; the search finds exactly those (`exists_of_introduces`,
`introduces_of_mem_ofStatement`).

Each of them mentions the package in a string literal.  So a file without such a
literal is returned as it is, whatever else it imports (`gate_on_imports`).
-/
import JestMigration.Proofs.Migration.Origin
import JestMigration.Proofs.Scope.Declarations
import JestMigration.Proofs.Syntax.Nesting

namespace JestMigration

open Node

section

variable {source : Source} {package : String} {statement : Node}

/-! ## Statements that bring a package in -/

/-- A statement that brings a package in, possibly among other things. -/
inductive Node.Introduces (source : Source) (package : String) (statement : Node) : Prop
  | importStatement {literal : Node} : statement.kind = .importStatement →
      statement.child? .source = some literal → literal.stringValue? source = some package →
      Introduces source package statement
  | declarator {declarator name value : Node} :
      statement.kind = .lexicalDeclaration ∨ statement.kind = .variableDeclaration →
      declarator ∈ statement.declarators → declarator.child? .name = some name →
      declarator.child? .value = some value → value.Requires source package →
      Introduces source package statement
  | expression {expression : Node} : statement.kind = .expressionStatement →
      statement.children.find? Node.isNamed = some expression →
      expression.Requires source package → Introduces source package statement

theorem kind_of_stringValue? {node : Node} {value : String}
    (h : node.stringValue? source = some value) : node.kind = .string := by
  unfold stringValue? at h
  split at h
  · assumption
  · exact absurd h (by simp)

theorem within_of_arguments? {call argument : Node} {arguments : List Node}
    (h : call.arguments? = some arguments) (hmem : argument ∈ arguments) :
    Within call argument := by
  obtain ⟨list, hlist, _, rfl⟩ := arguments?_eq_some h
  exact (within_of_child? hlist).trans (.of_mem_children (mem_children_of_mem_namedChildren hmem))

/-- What requires a package holds a string literal with its name. -/
theorem Node.Requires.exists_string {expression : Node}
    (h : expression.Requires source package) :
    ∃ literal, Within expression literal ∧ literal.kind = .string ∧
      literal.stringValue? source = some package := by
  obtain ⟨call, function, argument, hcall, hplace⟩ := h
  have hargument := within_of_arguments? hcall.arguments List.mem_cons_self
  refine ⟨argument, ?_, kind_of_stringValue? hcall.value, hcall.value⟩
  rcases hplace with rfl | ⟨_, hobject⟩
  · exact hargument
  · exact (within_of_child? hobject).trans hargument

theorem Node.Introduces.exists_string (h : statement.Introduces source package) :
    ∃ literal, Within statement literal ∧ literal.kind = .string ∧
      literal.stringValue? source = some package := by
  cases h with
  | importStatement _ hliteral hvalue =>
      exact ⟨_, within_of_child? hliteral, kind_of_stringValue? hvalue, hvalue⟩
  | declarator _ hmem _ hvalue hrequires =>
      obtain ⟨literal, hwithin, hkind, hstring⟩ := hrequires.exists_string
      refine ⟨literal, ?_, hkind, hstring⟩
      have hdeclarator := mem_children_of_mem_namedChildren (List.mem_filter.mp hmem).1
      exact (Within.of_mem_children hdeclarator).trans ((within_of_child? hvalue).trans hwithin)
  | expression _ hfind hrequires =>
      obtain ⟨literal, hwithin, hkind, hstring⟩ := hrequires.exists_string
      refine ⟨literal, ?_, hkind, hstring⟩
      exact (Within.of_mem_children (List.mem_of_find?_eq_some hfind)).trans hwithin

/-! ## The search -/

namespace Import

variable {table : ScopeTable} {entry : Import}

theorem requiredPackage?_eq_some_iff {expression : Node} :
    requiredPackage? source expression = some package ↔ expression.Requires source package := by
  refine ⟨requires_of_requiredPackage?, ?_⟩
  rintro ⟨call, function, argument, ⟨hkind, hcallee, hname, harguments, hvalue⟩, hplace⟩
  have hcall : (if expression.kind = .memberExpression then expression.child? .object
      else some expression) = some call := by
    rcases hplace with rfl | ⟨hmember, hobject⟩
    · rw [if_neg (by simp [hkind])]
    · rw [if_pos hmember, hobject]
  simp only [requiredPackage?, hcall, hkind, hcallee, harguments, if_true, if_pos hname, hvalue]

theorem introduces_of_mem_ofStatement (h : entry ∈ ofStatement table source statement) :
    entry.statement = statement ∧ statement.Introduces source entry.package := by
  have hdeclarator : ∀ {sole : Bool},
      statement.kind = .lexicalDeclaration ∨ statement.kind = .variableDeclaration →
      entry ∈ statement.declarators.filterMap (ofDeclarator? table source statement sole) →
      entry.statement = statement ∧ statement.Introduces source entry.package := by
    intro sole hkind hmem
    obtain ⟨declarator, hdeclarator, hof⟩ := List.mem_filterMap.mp hmem
    obtain ⟨hsame, _, value, hvalue, hrequires⟩ := requires_of_ofDeclarator? hof
    refine ⟨hsame, ?_⟩
    unfold ofDeclarator? at hof
    split at hof
    · rename_i hname
      exact .declarator hkind hdeclarator hname hvalue hrequires
    · exact absurd hof (by simp)
  unfold ofStatement at h
  split at h
  · rename_i hkind
    obtain ⟨hsame, himports⟩ := imports_of_ofImportStatement hkind h
    refine ⟨hsame, ?_⟩
    cases himports with
    | importStatement hkind hliteral hvalue => exact .importStatement hkind hliteral hvalue
    | declaration hother => simp [hkind] at hother
    | expression hother => simp [hkind] at hother
  · exact hdeclarator (.inl ‹_›) h
  · exact hdeclarator (.inr ‹_›) h
  · rename_i hkind
    unfold ofExpressionStatement? at h
    split at h
    · rename_i expression hexpression
      obtain ⟨package, hpackage, rfl⟩ := Option.map_eq_some_iff.mp (Option.mem_toList.mp h)
      exact ⟨rfl, .expression hkind hexpression (requires_of_requiredPackage? hpackage)⟩
    · exact absurd h (by simp)
  · exact absurd h List.not_mem_nil

theorem exists_ofDeclarator? {declarator name value : Node} (sole : Bool)
    (hname : declarator.child? .name = some name) (hvalue : declarator.child? .value = some value)
    (hrequires : value.Requires source package) :
    ∃ entry, ofDeclarator? table source statement sole declarator = some entry ∧
      entry.statement = statement ∧ entry.package = package ∧ entry.sole = sole := by
  have hpackage : (declarator.child? .value).bind (requiredPackage? source) = some package := by
    rw [hvalue]
    exact requiredPackage?_eq_some_iff.mpr hrequires
  simp only [ofDeclarator?, hpackage, hname]
  split
  · exact ⟨_, rfl, rfl, rfl, rfl⟩
  · exact ⟨_, rfl, rfl, rfl, rfl⟩

/-- Every statement that brings a package in is found, and is marked as sole if it does nothing
else. -/
theorem exists_of_introduces (table : ScopeTable) (h : statement.Introduces source package) :
    ∃ entry ∈ ofStatement table source statement, entry.statement = statement ∧
      entry.package = package ∧ (statement.Imports source package → entry.sole = true) := by
  cases h with
  | importStatement hkind hliteral hvalue =>
      have hpackage : ((statement.child? .source).bind fun literal =>
          literal.stringValue? source) = some package := by rw [hliteral]; exact hvalue
      simp only [ofStatement, hkind, ofImportStatement, hpackage]
      cases statementNames statement with
      | nil => exact ⟨_, List.mem_singleton_self _, rfl, rfl, fun _ => rfl⟩
      | cons first rest => exact ⟨_, List.mem_cons_self, rfl, rfl, fun _ => rfl⟩
  | declarator hkind hmem hname hvalue hrequires =>
      have hof : ofStatement table source statement = statement.declarators.filterMap
          (ofDeclarator? table source statement (statement.declarators.length == 1)) := by
        rcases hkind with hkind | hkind <;> simp only [ofStatement, hkind]
      obtain ⟨entry, hentry, hsame, hpackage, hsole⟩ :=
        exists_ofDeclarator? (statement.declarators.length == 1) hname hvalue hrequires
      rw [hof]
      refine ⟨entry, List.mem_filterMap.mpr ⟨_, hmem, hentry⟩, hsame, hpackage, ?_⟩
      intro himports
      rw [hsole]
      cases himports with
      | importStatement hother => rcases hkind with hkind | hkind <;> simp [hkind] at hother
      | declaration _ honly => rw [honly]; rfl
      | expression hother => rcases hkind with hkind | hkind <;> simp [hkind] at hother
  | expression hkind hfind hrequires =>
      refine ⟨sideEffect package statement, ?_, rfl, rfl, fun _ => rfl⟩
      simp only [ofStatement, hkind, ofExpressionStatement?, hfind,
        requiredPackage?_eq_some_iff.mpr hrequires, Option.map_some, Option.mem_toList]

/-- The entries of a file for a package come from the statements that bring it in. -/
theorem exists_mem_scan_iff {top : Node} :
    (∃ entry ∈ scan table source top, entry.package = package) ↔
      ∃ statement ∈ top.namedChildren, statement.Introduces source package := by
  constructor
  · rintro ⟨entry, hentry, rfl⟩
    obtain ⟨statement, hstatement, hof⟩ := List.mem_flatMap.mp hentry
    exact ⟨statement, hstatement, (introduces_of_mem_ofStatement hof).2⟩
  · rintro ⟨statement, hstatement, hintroduces⟩
    obtain ⟨entry, hentry, _, hpackage, _⟩ := exists_of_introduces table hintroduces
    exact ⟨entry, List.mem_flatMap.mpr ⟨statement, hstatement, hentry⟩, hpackage⟩

end Import

/-! ## Statements that are taken out, each once -/

namespace Framework

variable {imports : List Import} {options : Options} {framework : Framework}

theorem mem_ids_addStatement (statements : List Node) (statement : Node) (id : Nat) :
    id ∈ (addStatement statements statement).map Node.id ↔
      id ∈ statements.map Node.id ∨ id = statement.id := by
  unfold addStatement
  split
  · rename_i hany
    obtain ⟨other, hother, hid⟩ := List.any_eq_true.mp hany
    refine ⟨.inl, ?_⟩
    rintro (h | rfl)
    · exact h
    · exact List.mem_map.mpr ⟨other, hother, beq_iff_eq.mp hid⟩
  · simp

theorem nodup_ids_addStatement {statements : List Node} (h : (statements.map Node.id).Nodup)
    (statement : Node) : ((addStatement statements statement).map Node.id).Nodup := by
  unfold addStatement
  split
  · exact h
  · rename_i hany
    have hnew : statement.id ∉ statements.map Node.id := by
      intro hmem
      obtain ⟨other, hother, hid⟩ := List.mem_map.mp hmem
      exact hany (List.any_eq_true.mpr ⟨other, hother, beq_iff_eq.mpr hid⟩)
    rw [List.map_append, List.map_singleton]
    exact List.nodup_append.mpr ⟨h, List.pairwise_singleton _ _, by
      rintro a ha b hb rfl
      exact hnew (List.mem_singleton.mp hb ▸ ha)⟩

theorem mem_ids_foldl_addStatement (statements found : List Node) (id : Nat) :
    id ∈ (statements.foldl addStatement found).map Node.id ↔
      id ∈ found.map Node.id ∨ id ∈ statements.map Node.id := by
  induction statements generalizing found with
  | nil => simp
  | cons first rest ih =>
      rw [List.foldl_cons, ih, mem_ids_addStatement, List.map_cons, List.mem_cons, or_assoc]

theorem nodup_ids_statementsOf (imports : List Import) :
    ((statementsOf imports).map Node.id).Nodup := by
  have hfold : ∀ (statements found : List Node), (found.map Node.id).Nodup →
      ((statements.foldl addStatement found).map Node.id).Nodup := by
    intro statements
    induction statements with
    | nil => exact fun _ h => h
    | cons first rest ih => exact fun found h => ih _ (nodup_ids_addStatement h first)
  exact hfold _ [] List.nodup_nil

theorem detect?_eq_none_iff : detect? imports options = none ↔
    options.skipImportDetection = false ∧ ∀ entry ∈ imports, entry.package ≠ Framework.package := by
  simp only [detect?]
  split
  · rename_i h
    simpa [and_comm, List.filter_eq_nil_iff] using h
  · rename_i h
    simp only [Bool.and_eq_true, List.isEmpty_iff, List.filter_eq_nil_iff, beq_iff_eq,
      Bool.not_eq_true', not_and] at h
    simp only [reduceCtorEq, false_iff, not_and]
    exact fun hskip hnone => h hnone hskip

/-- A file that uses the framework has a name for its test function. -/
theorem roots_ne_nil (h : detect? imports options = some framework) : framework.roots ≠ [] := by
  simp only [detect?] at h
  split at h
  · exact absurd h (by simp)
  · cases h
    dsimp only
    split
    · exact List.cons_ne_nil _ _
    · assumption

end Framework

/-! ## The gate -/

namespace Migration

variable {tree : Tree} {options : Options} {framework : Framework}

theorem detect?_scan_eq_none_iff :
    Framework.detect? (Import.scan (ScopeTable.build source tree) source (root tree)) options =
        none ↔
      options.skipImportDetection = false ∧
        ∀ statement ∈ (root tree).namedChildren,
          ¬ statement.Introduces source Framework.package := by
  rw [Framework.detect?_eq_none_iff]
  refine and_congr_right fun _ => ?_
  have hscan : (∃ entry ∈ Import.scan (ScopeTable.build source tree) source (root tree),
      entry.package = Framework.package) ↔ _ := Import.exists_mem_scan_iff
  simpa only [not_exists, not_and] using not_congr hscan

/-- The statements that are taken out are those that bring the framework in and do nothing else. -/
theorem mem_statements_iff
    (hdetect : Framework.detect?
      (Import.scan (ScopeTable.build source tree) source (root tree)) options = some framework) :
    statement ∈ framework.statements ↔ statement ∈ (root tree).namedChildren ∧
      statement.Introduces source Framework.package ∧
      statement.Imports source Framework.package := by
  have hentry : ∀ statement ∈ framework.statements, statement ∈ (root tree).namedChildren ∧
      statement.Introduces source Framework.package := by
    intro statement h
    rw [Framework.statements_of_detect? hdetect] at h
    obtain ⟨entry, hentry, _, rfl⟩ := Framework.mem_statementsOf h
    obtain ⟨hscan, hpackage⟩ := List.mem_filter.mp hentry
    obtain ⟨top, htop, hof⟩ := List.mem_flatMap.mp hscan
    obtain ⟨hsame, hintroduces⟩ := Import.introduces_of_mem_ofStatement hof
    rw [beq_iff_eq.mp hpackage] at hintroduces
    rw [hsame]
    exact ⟨htop, hintroduces⟩
  constructor
  · intro h
    obtain ⟨htop, hintroduces⟩ := hentry statement h
    exact ⟨htop, hintroduces, (imports_of_mem_statements hdetect h).2⟩
  · rintro ⟨htop, hintroduces, himports⟩
    obtain ⟨entry, hmem, hsame, hpackage, hsole⟩ :=
      Import.exists_of_introduces (ScopeTable.build source tree) hintroduces
    have hid : statement.id ∈ framework.statements.map Node.id := by
      rw [Framework.statements_of_detect? hdetect, Framework.statementsOf,
        Framework.mem_ids_foldl_addStatement, ← hsame]
      refine .inr (List.mem_map_of_mem (List.mem_map_of_mem ?_))
      refine List.mem_filter.mpr ⟨List.mem_filter.mpr ⟨?_, beq_iff_eq.mpr hpackage⟩, hsole himports⟩
      exact List.mem_flatMap.mpr ⟨statement, htop, hmem⟩
    -- Statements of one file are the same if they have the same place.
    obtain ⟨other, hother, hplace⟩ := List.mem_map.mp hid
    have hwithin : ∀ {node : Node}, node ∈ (root tree).namedChildren → Within (root tree) node :=
      fun h => .of_mem_children (mem_children_of_mem_namedChildren h)
    rwa [(hwithin htop).eq_of_id (hwithin (hentry other hother).1) hplace.symm]

/-- A file without a string literal for the framework is left as it is: nothing is changed and
nothing is reported.  A file with a top-level statement that brings the framework in is migrated:
there is a name for the test function, and the statements to take out are listed once each. -/
theorem gate_on_imports (source : Source) (tree : Tree) (options : Options) :
    (options.skipImportDetection = false →
      (∀ node, Within (root tree) node → node.kind = .string →
        node.stringValue? source ≠ some "ava") →
      migrate source tree options = .ok ⟨source.text, false, []⟩) ∧
    ((∃ statement ∈ (root tree).namedChildren, statement.Introduces source "ava") →
      ∃ framework,
        Framework.detect? (Import.scan (ScopeTable.build source tree) source (root tree)) options =
          some framework ∧
        framework.roots ≠ [] ∧ (framework.statements.map Node.id).Nodup ∧
        ∀ statement, statement ∈ framework.statements ↔
          statement ∈ (root tree).namedChildren ∧ statement.Introduces source "ava" ∧
            statement.Imports source "ava") := by
  refine ⟨?_, ?_⟩
  · intro hskip hfree
    have hnone : plan? source tree options = none := by
      refine Option.map_eq_none_iff.mpr (detect?_scan_eq_none_iff.mpr ⟨hskip, ?_⟩)
      intro statement hstatement hintroduces
      obtain ⟨literal, hwithin, hkind, hvalue⟩ := hintroduces.exists_string
      have htop := Within.of_mem_children (mem_children_of_mem_namedChildren hstatement)
      exact hfree literal (htop.trans hwithin) hkind hvalue
    rw [migrate, hnone, unchanged]
  · rintro ⟨statement, hstatement, hintroduces⟩
    cases hdetect : Framework.detect?
        (Import.scan (ScopeTable.build source tree) source (root tree)) options with
    | none => exact absurd hintroduces ((detect?_scan_eq_none_iff.mp hdetect).2 _ hstatement)
    | some framework =>
        refine ⟨framework, rfl, Framework.roots_ne_nil hdetect, ?_, fun _ =>
          mem_statements_iff hdetect⟩
        rw [Framework.statements_of_detect? hdetect]
        exact Framework.nodup_ids_statementsOf _

end Migration

end

namespace Companion

/-- A file that imports a companion package only. -/
def source : Source where
  text := "import 'mockery';\n"

/-- The tree of the file. -/
def tree : Tree :=
  Sample.node .program 0 18 none
    [ Sample.node .importStatement 0 17 none
        [ Sample.token "import" 0 6, Sample.quoted 7 16 (some .source), Sample.token ";" 16 17 ] ]

end Companion

namespace Migration

/-- In a file without the framework the companion package is not reported; in a file with it, the
statement that imports it is taken out. -/
theorem gate_on_imports_companion :
    Import.incompatible (Import.scan (ScopeTable.build Companion.source Companion.tree)
      Companion.source (root Companion.tree)) = ["mockery"] ∧
    migrate Companion.source Companion.tree {} = .ok ⟨Companion.source.text, false, []⟩ ∧
    ∃ framework, Framework.detect? (Import.scan (ScopeTable.build Sample.source Sample.tree)
        Sample.source (root Sample.tree)) {} = some framework ∧
      framework.roots ≠ [] ∧
      ∃ statement ∈ framework.statements, statement.kind = .importStatement := by
  have hfree : ∀ node ∈ (root Companion.tree).nodes, node.kind = .string →
      node.stringValue? Companion.source ≠ some "ava" := by decide +kernel
  obtain ⟨statement, hmem, hkind, hpackage⟩ : ∃ statement ∈ (root Sample.tree).namedChildren,
      statement.kind = .importStatement ∧ ((statement.child? .source).bind fun literal =>
        literal.stringValue? Sample.source) = some "ava" := by
    decide +kernel
  obtain ⟨literal, hliteral, hvalue⟩ := Option.bind_eq_some_iff.mp hpackage
  obtain ⟨framework, hdetect, hroots, _, hstatements⟩ :=
    (gate_on_imports Sample.source Sample.tree {}).2
      ⟨statement, hmem, .importStatement hkind hliteral hvalue⟩
  refine ⟨by decide +kernel, ?_, framework, hdetect, hroots, statement, ?_, hkind⟩
  · exact (gate_on_imports Companion.source Companion.tree {}).1 rfl
      fun node hnode => hfree node (mem_nodes_of_within hnode)
  · exact (hstatements statement).mpr ⟨hmem, .importStatement hkind hliteral hvalue,
      .importStatement hkind hliteral hvalue⟩

end Migration

end JestMigration
