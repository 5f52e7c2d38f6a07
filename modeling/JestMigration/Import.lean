/-
# `Import` — the packages a file imports

The top-level statements are searched for `import` statements and for calls of
`require`.  Each name that is imported gives an entry; an import for its side
effects gives one without a name.
-/
import JestMigration.Scope.Resolve

namespace JestMigration

/-- The form in which a package is imported. -/
inductive ImportStyle where
  /-- `import test from 'p'` -/
  | default
  /-- `import * as test from 'p'` -/
  | namespaced
  /-- `import {test} from 'p'`, or `const {test} = require('p')` -/
  | named
  /-- `const test = require('p')` -/
  | require
  /-- `import 'p'`, or `require('p')` -/
  | sideEffect
  deriving DecidableEq

/-- One imported name, or an import without a name. -/
structure Import where
  localName? : Option String
  package : String
  style : ImportStyle
  /-- The top-level statement that imports. -/
  statement : Node
  binding? : Option BindingId
  /-- Does the statement declare nothing but this import? -/
  sole : Bool

namespace Import

/-- An import that binds no name. -/
def sideEffect (package : String) (statement : Node) : Import :=
  ⟨none, package, .sideEffect, statement, none, true⟩

/-- The package of `require('p')`, possibly followed by a member access. -/
def requiredPackage? (source : Source) (expression : Node) : Option String :=
  let call? :=
    if expression.kind = .memberExpression then expression.child? .object else some expression
  match call? with
  | none => none
  | some call =>
    if call.kind = .callExpression then
      match call.child? .function, call.arguments? with
      | some function, some [argument] =>
        if function.kind = .identifier ∧ function.text source = "require" then
          argument.stringValue? source
        else
          none
      | _, _ => none
    else
      none

/-- The names in one part of an import clause. -/
def clauseNames (part : Node) : List (Node × ImportStyle) :=
  match part.kind with
  | .identifier => [(part, .default)]
  | .namespaceImport =>
    match part.namedChildren.find? fun child => child.kind == .identifier with
    | some name => [(name, .namespaced)]
    | none => []
  | .namedImports =>
    (part.namedChildren.filterMap Node.importedAs?).map fun name => (name, .named)
  | _ => []

/-- The names that an `import` statement binds. -/
def statementNames (statement : Node) : List (Node × ImportStyle) :=
  (statement.namedChildren.filter fun child => child.kind == .importClause).flatMap fun clause =>
    clause.namedChildren.flatMap clauseNames

/-- The imports of an `import` statement. -/
def ofImportStatement (table : ScopeTable) (source : Source) (statement : Node) : List Import :=
  match (statement.child? .source).bind fun package => package.stringValue? source with
  | none => []
  | some package =>
    match statementNames statement with
    | [] => [sideEffect package statement]
    | names => names.map fun (name, style) =>
      ⟨some (name.text source), package, style, statement, table.declaredAt? name, true⟩

/-- The import of a declarator `name = require('p')`. -/
def ofDeclarator? (table : ScopeTable) (source : Source) (statement : Node) (sole : Bool)
    (declarator : Node) : Option Import :=
  match (declarator.child? .value).bind (requiredPackage? source), declarator.child? .name with
  | some package, some name =>
    if name.kind = .identifier then
      some ⟨some (name.text source), package, .require, statement, table.declaredAt? name, sole⟩
    else
      some ⟨none, package, .named, statement, none, sole⟩
  | _, _ => none

/-- The import of a statement that is a call of `require`. -/
def ofExpressionStatement? (source : Source) (statement : Node) : Option Import :=
  match statement.children.find? Node.isNamed with
  | some expression =>
    (requiredPackage? source expression).map fun package => sideEffect package statement
  | none => none

/-- The imports of a top-level statement. -/
def ofStatement (table : ScopeTable) (source : Source) (statement : Node) : List Import :=
  match statement.kind with
  | .importStatement => ofImportStatement table source statement
  | .lexicalDeclaration | .variableDeclaration =>
    let declarators := statement.declarators
    declarators.filterMap (ofDeclarator? table source statement (declarators.length == 1))
  | .expressionStatement => (ofExpressionStatement? source statement).toList
  | _ => []

/-- The imports of a file, in source order. -/
def scan (table : ScopeTable) (source : Source) (root : Node) : List Import :=
  root.namedChildren.flatMap (ofStatement table source)

/-- Companion packages that count on the framework to be left. -/
def incompatiblePackages : List String :=
  ["testdouble", "mockery"]

/-- The companion packages among some imports, each once, in order of first occurrence. -/
def incompatible (imports : List Import) : List String :=
  imports.foldl
    (fun found entry =>
      if incompatiblePackages.contains entry.package && !found.contains entry.package then
        found ++ [entry.package]
      else
        found)
    []

end Import

end JestMigration
