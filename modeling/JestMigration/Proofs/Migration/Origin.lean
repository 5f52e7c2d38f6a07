/-
# `Proofs.Migration.Origin` — where the changes of a file come from

The plan for a file is put together from imports, callees and callbacks.
`origin_of_plan?` takes it apart again: every change takes out an import of the
framework, replaces the callee of a registration whose chain is understood, or
is in the plan for the callback of a registration whose chain is known.

`Node.Imports` says what a statement looks like that is taken out, without
reference to how it is searched for.
-/
import JestMigration.Migration
import JestMigration.Proofs.Callback.Changes

namespace JestMigration

open Node

/-! ## Imports -/

/-- A call `require('p')` of the given package. -/
structure Node.IsRequire (source : Source) (package : String) (call function argument : Node) :
    Prop where
  kind : call.kind = .callExpression
  callee : call.child? .function = some function
  name : function.kind = .identifier ∧ function.text source = "require"
  arguments : call.arguments? = some [argument]
  value : argument.stringValue? source = some package

/-- `require('p')`, possibly followed by a member access. -/
def Node.Requires (source : Source) (package : String) (expression : Node) : Prop :=
  ∃ call function argument, call.IsRequire source package function argument ∧
    (expression = call ∨
      expression.kind = .memberExpression ∧ expression.child? .object = some call)

/-- A statement that imports a package and declares nothing else. -/
inductive Node.Imports (source : Source) (package : String) (statement : Node) : Prop
  | importStatement {literal : Node} : statement.kind = .importStatement →
      statement.child? .source = some literal → literal.stringValue? source = some package →
      Imports source package statement
  | declaration {declarator value : Node} :
      statement.kind = .lexicalDeclaration ∨ statement.kind = .variableDeclaration →
      statement.declarators = [declarator] → declarator.child? .value = some value →
      value.Requires source package → Imports source package statement
  | expression {expression : Node} : statement.kind = .expressionStatement →
      statement.children.find? Node.isNamed = some expression →
      expression.Requires source package → Imports source package statement

theorem Node.Imports.isSolid {source : Source} {package : String} {statement : Node}
    (h : statement.Imports source package) : statement.kind.isSolid = true := by
  cases h with
  | importStatement hkind => rw [hkind]; rfl
  | declaration hkind => rcases hkind with hkind | hkind <;> rw [hkind] <;> rfl
  | expression hkind => rw [hkind]; rfl

namespace Import

variable {table : ScopeTable} {source : Source} {statement : Node} {entry : Import}

theorem requires_of_requiredPackage? {expression : Node} {package : String}
    (h : requiredPackage? source expression = some package) :
    expression.Requires source package := by
  simp only [requiredPackage?] at h
  split at h
  · exact absurd h (by simp)
  · rename_i call hfound
    have hplace : expression = call ∨
        expression.kind = .memberExpression ∧ expression.child? .object = some call := by
      split at hfound
      · rename_i hmember
        exact .inr ⟨hmember, hfound⟩
      · exact .inl (Option.some.inj hfound)
    split at h
    · rename_i hkind
      split at h
      · rename_i function argument hfunction harguments
        split at h
        · rename_i hname
          exact ⟨call, function, argument, ⟨hkind, hfunction, hname, harguments, h⟩, hplace⟩
        · exact absurd h (by simp)
      · exact absurd h (by simp)
    · exact absurd h (by simp)

theorem imports_of_ofImportStatement (hkind : statement.kind = .importStatement)
    (h : entry ∈ ofImportStatement table source statement) :
    entry.statement = statement ∧ statement.Imports source entry.package := by
  unfold ofImportStatement at h
  split at h
  · exact absurd h List.not_mem_nil
  · rename_i package hpackage
    obtain ⟨literal, hliteral, hvalue⟩ := Option.bind_eq_some_iff.mp hpackage
    have himports : statement.Imports source package := .importStatement hkind hliteral hvalue
    split at h
    · rw [List.mem_singleton.mp h]
      exact ⟨rfl, himports⟩
    · obtain ⟨name, _, rfl⟩ := List.mem_map.mp h
      exact ⟨rfl, himports⟩

theorem requires_of_ofDeclarator? {declarator : Node} {sole : Bool}
    (h : ofDeclarator? table source statement sole declarator = some entry) :
    entry.statement = statement ∧ entry.sole = sole ∧
      ∃ value, declarator.child? .value = some value ∧ value.Requires source entry.package := by
  unfold ofDeclarator? at h
  split at h
  · rename_i package name hpackage _
    obtain ⟨value, hvalue, hrequired⟩ := Option.bind_eq_some_iff.mp hpackage
    have hrequires := requires_of_requiredPackage? hrequired
    split at h
    · cases h
      exact ⟨rfl, rfl, value, hvalue, hrequires⟩
    · cases h
      exact ⟨rfl, rfl, value, hvalue, hrequires⟩
  · exact absurd h (by simp)

theorem imports_of_declarators
    (hkind : statement.kind = .lexicalDeclaration ∨ statement.kind = .variableDeclaration)
    (h : entry ∈ statement.declarators.filterMap
      (ofDeclarator? table source statement (statement.declarators.length == 1)))
    (hsole : entry.sole = true) :
    entry.statement = statement ∧ statement.Imports source entry.package := by
  obtain ⟨declarator, hmem, hof⟩ := List.mem_filterMap.mp h
  obtain ⟨hstatement, hlength, value, hvalue, hrequires⟩ := requires_of_ofDeclarator? hof
  rw [hsole, eq_comm, beq_iff_eq, List.length_eq_one_iff] at hlength
  obtain ⟨only, honly⟩ := hlength
  rw [honly, List.mem_singleton] at hmem
  exact ⟨hstatement, .declaration hkind (hmem ▸ honly) hvalue hrequires⟩

/-- A statement that is taken out imports the package and nothing else. -/
theorem imports_of_mem_ofStatement (h : entry ∈ ofStatement table source statement)
    (hsole : entry.sole = true) :
    entry.statement = statement ∧ statement.Imports source entry.package := by
  unfold ofStatement at h
  split at h
  · exact imports_of_ofImportStatement ‹_› h
  · exact imports_of_declarators (.inl ‹_›) h hsole
  · exact imports_of_declarators (.inr ‹_›) h hsole
  · rename_i hkind
    unfold ofExpressionStatement? at h
    split at h
    · rename_i expression hexpression
      obtain ⟨package, hpackage, rfl⟩ := Option.map_eq_some_iff.mp (Option.mem_toList.mp h)
      exact ⟨rfl, .expression hkind hexpression (requires_of_requiredPackage? hpackage)⟩
    · exact absurd h (by simp)
  · exact absurd h List.not_mem_nil

end Import

/-! ## The plan for a file -/

theorem Framework.mem_statementsOf {imports : List Import} {statement : Node}
    (h : statement ∈ statementsOf imports) :
    ∃ entry ∈ imports, entry.sole = true ∧ entry.statement = statement := by
  have hfold : ∀ (found rest : List Node),
      ∀ node ∈ rest.foldl addStatement found, node ∈ found ∨ node ∈ rest := by
    intro found rest
    induction rest generalizing found with
    | nil => exact fun _ h => .inl h
    | cons first rest ih =>
        intro node hnode
        rcases ih _ node hnode with hadd | hrest
        · unfold addStatement at hadd
          split at hadd
          · exact .inl hadd
          · rcases List.mem_append.mp hadd with hadd | hadd
            · exact .inl hadd
            · exact .inr (List.mem_singleton.mp hadd ▸ List.mem_cons_self)
        · exact .inr (List.mem_cons_of_mem _ hrest)
  rcases hfold _ _ _ h with h | h
  · exact absurd h List.not_mem_nil
  · obtain ⟨entry, hentry, rfl⟩ := List.mem_map.mp h
    obtain ⟨hmem, hsole⟩ := List.mem_filter.mp hentry
    exact ⟨entry, hmem, hsole, rfl⟩

theorem Framework.statements_of_detect? {imports : List Import} {options : Options}
    {framework : Framework} (h : detect? imports options = some framework) :
    framework.statements = statementsOf (imports.filter fun entry => entry.package == package) := by
  simp only [detect?] at h
  split at h
  · exact absurd h (by simp)
  · cases h
    rfl

namespace Registration

variable {table : ScopeTable} {source : Source} {framework : Framework} {call : Node}
  {registration : Registration}

/-- What a call must be like to be a registration. -/
theorem ofCall?_eq_some (h : ofCall? table source framework call = some registration) :
    registration.call = call ∧ call.child? .function = some registration.callee ∧
      ∃ arguments chain names, call.arguments? = some arguments ∧
        registration.callee.memberChain? source = some (chain, names) ∧
        framework.refersTo table (chain.text source) (table.resolve? source chain) = true ∧
        registration.modifiers = names.map Modifier.ofName ∧
        registration.callback? =
          arguments.reverse.find? fun argument => argument.kind.isCallbackLiteral := by
  unfold ofCall? at h
  split at h
  · rename_i callee arguments hcallee harguments
    split at h
    · rename_i chain names hchain
      split at h
      · rename_i hrefers
        cases h
        exact ⟨rfl, hcallee, arguments, chain, names, harguments, hchain, hrefers, rfl, rfl⟩
      · exact absurd h (by simp)
    · exact absurd h (by simp)
  · exact absurd h (by simp)

/-- The callback of a registration is a function literal among the arguments of the call. -/
theorem callback_of_ofCall? (h : ofCall? table source framework call = some registration)
    {callback : Node} (hcallback : registration.callback? = some callback) :
    callback.kind.isCallbackLiteral = true ∧
      ∃ list, call.child? .arguments = some list ∧ list.kind = .arguments ∧
        callback ∈ list.namedChildren := by
  obtain ⟨_, _, arguments, _, _, harguments, _, _, _, hfind⟩ := ofCall?_eq_some h
  rw [hfind] at hcallback
  have hliteral := List.find?_some hcallback
  refine ⟨hliteral, ?_⟩
  have hmem := List.mem_reverse.mp (List.mem_of_find?_eq_some hcallback)
  obtain ⟨list, hlist, hkind, rfl⟩ := arguments?_eq_some harguments
  exact ⟨list, hlist, hkind, hmem⟩

/-- A registration asks for another callee, or for what its callback asks for. -/
theorem changes_cases {change : Change} (h : change ∈ (registration.plan table source).changes) :
    (∃ normalized, Modifier.normalize registration.modifiers = .ok normalized ∧
      change = .replace registration.callee.span normalized.target.callee) ∨
    ∃ callback completion,
      (∀ name, Modifier.normalize registration.modifiers ≠ .error (.unknownMethod name)) ∧
      registration.callback? = some callback ∧
      change ∈ (Callback.plan table source callback completion).changes := by
  have hcallback : ∀ {completion : Bool},
      change ∈ (registration.callbackPlan table source completion).changes →
      ∃ callback, registration.callback? = some callback ∧
        change ∈ (Callback.plan table source callback completion).changes := by
    intro completion h
    unfold callbackPlan at h
    split at h
    · rename_i callback hcallback
      exact ⟨callback, hcallback, h⟩
    · exact absurd h List.not_mem_nil
  unfold plan at h
  split at h
  · rename_i normalized hnormalized
    rw [Plan.changes_append, Plan.changes_replace] at h
    rcases List.mem_append.mp h with h | h
    · exact .inl ⟨normalized, hnormalized, List.mem_singleton.mp h⟩
    · obtain ⟨callback, hsome, hchange⟩ := hcallback h
      exact .inr ⟨callback, _, by simp [hnormalized], hsome, hchange⟩
  · rename_i reason hreason
    rw [Plan.changes_append, Plan.changes_warn, List.nil_append] at h
    split at h
    · rename_i hconverts
      obtain ⟨callback, hsome, hchange⟩ := hcallback h
      refine .inr ⟨callback, _, ?_, hsome, hchange⟩
      rintro name hname
      rw [hreason] at hname
      cases hname
      exact absurd hconverts (by simp [Unsupported.convertsCallback])
    · exact absurd h List.not_mem_nil

theorem kind_of_memberChain? {node chain : Node} {names : List String}
    (h : node.memberChain? source = some (chain, names)) :
    node.kind = .identifier ∨ node.kind = .memberExpression := by
  unfold memberChain? at h
  split at h
  · exact .inl ‹_›
  · exact .inr ‹_›
  · exact absurd h (by simp)

end Registration

namespace Migration

variable {source : Source} {tree : Tree} {options : Options} {framework : Framework}
  {change : Change}

/-- Where a change in the plan for a file comes from: from an import that is taken out, from the
callee of a registration whose chain is understood, or from the callback of one whose chain is
known. -/
inductive Origin (source : Source) (tree : Tree) (framework : Framework) : Change → Prop
  | imports {statement : Node} : statement ∈ framework.statements →
      Origin source tree framework (.deleteStatementLines statement.span)
  | callee {call : Node} {registration : Registration} {normalized : Normalized} :
      Within (root tree) call →
      Registration.ofCall? (ScopeTable.build source tree) source framework call =
        some registration →
      Modifier.normalize registration.modifiers = .ok normalized →
      Origin source tree framework
        (.replace registration.callee.span normalized.target.callee)
  | callback {call callback : Node} {registration : Registration} {completion : Bool}
      {change : Change} : Within (root tree) call →
      Registration.ofCall? (ScopeTable.build source tree) source framework call =
        some registration →
      (∀ name, Modifier.normalize registration.modifiers ≠ .error (.unknownMethod name)) →
      registration.callback? = some callback →
      change ∈ (Callback.plan (ScopeTable.build source tree) source callback completion).changes →
      Origin source tree framework change

theorem origin_of_registration {call : Node} {registration : Registration}
    (hcall : Within (root tree) call)
    (hof : Registration.ofCall? (ScopeTable.build source tree) source framework call =
      some registration)
    (h : change ∈ (registration.plan (ScopeTable.build source tree) source).changes) :
    Origin source tree framework change := by
  rcases Registration.changes_cases h with ⟨normalized, hnormalized, rfl⟩ |
    ⟨callback, completion, hknown, hcallback, hchange⟩
  · exact .callee hcall hof hnormalized
  · exact .callback hcall hof hknown hcallback hchange

theorem changes_importPlan (imports : List Import) (framework : Framework) :
    (importPlan imports framework).changes =
      framework.statements.map fun statement => .deleteStatementLines statement.span := by
  have hreports : Plan.changes ((Import.incompatible imports).map
      (fun package => .report (.ofFile (Finding.incompatiblePackage package).message))) = [] := by
    simp [Plan.changes]
  have hchanges : ∀ statements : List Node, Plan.changes (statements.map
      fun statement => .change (.deleteStatementLines statement.span)) =
      statements.map fun statement => .deleteStatementLines statement.span := by
    intro statements
    induction statements with
    | nil => rfl
    | cons first rest ih => rw [List.map_cons, ← List.singleton_append, Plan.changes_append, ih]; rfl
  rw [importPlan, Plan.changes_append, hreports, hchanges, List.nil_append]

/-- Every change in the plan for a file has one of the three origins. -/
theorem origin_of_plan? {plan : Plan} (hplan : plan? source tree options = some plan)
    (h : change ∈ plan.changes) :
    ∃ framework, Framework.detect?
        (Import.scan (ScopeTable.build source tree) source (root tree)) options = some framework ∧
      Origin source tree framework change := by
  obtain ⟨framework, hdetect, rfl⟩ := Option.map_eq_some_iff.mp hplan
  refine ⟨framework, hdetect, ?_⟩
  rw [Plan.changes_append, Plan.changes_flatMap, changes_importPlan] at h
  rcases List.mem_append.mp h with h | h
  · obtain ⟨statement, hstatement, rfl⟩ := List.mem_map.mp h
    exact .imports hstatement
  · obtain ⟨registration, hregistration, h⟩ := List.mem_flatMap.mp h
    obtain ⟨call, hcall, hof⟩ := List.mem_filterMap.mp hregistration
    exact origin_of_registration (within_of_mem_nodes (List.mem_filter.mp hcall).1) hof h

theorem imports_of_mem_statements
    (hdetect : Framework.detect?
      (Import.scan (ScopeTable.build source tree) source (root tree)) options = some framework)
    {statement : Node} (h : statement ∈ framework.statements) :
    statement ∈ (root tree).children ∧ statement.Imports source Framework.package := by
  rw [Framework.statements_of_detect? hdetect] at h
  obtain ⟨entry, hentry, hsole, rfl⟩ := Framework.mem_statementsOf h
  obtain ⟨hscan, hpackage⟩ := List.mem_filter.mp hentry
  obtain ⟨top, htop, hof⟩ := List.mem_flatMap.mp hscan
  obtain ⟨hsame, himports⟩ := Import.imports_of_mem_ofStatement hof hsole
  rw [beq_iff_eq] at hpackage
  rw [hsame]
  exact ⟨mem_children_of_mem_namedChildren htop, hpackage ▸ himports⟩

end Migration

end JestMigration
