/-
# `Framework` — whether a file uses AVA, and under which names

A file is migrated only if it imports the framework, or if the user says that
its test function needs no import.  Where an import binds the test function,
registrations are recognised by that binding; otherwise by name, as far as no
inner scope binds the name.
-/
import JestMigration.Import
import JestMigration.Options

namespace JestMigration

/-- A name that stands for the framework's test function. -/
structure FrameworkRoot where
  name : String
  /-- The binding of the name; none for a name that nothing in the file binds. -/
  binding? : Option BindingId
  deriving DecidableEq

/-- How a file uses the framework. -/
structure Framework where
  roots : List FrameworkRoot
  /-- The statements that import the framework and nothing else. -/
  statements : List Node

namespace Framework

/-- The package of the framework. -/
def package : String := "ava"

/-- The name of the test function unless the user gives another. -/
def defaultName : String := "test"

/-- Adds a node unless it is there. -/
def addStatement (statements : List Node) (statement : Node) : List Node :=
  if statements.any fun other => other.id == statement.id then statements
  else statements ++ [statement]

/-- The statements among some imports that declare nothing else, each once. -/
def statementsOf (imports : List Import) : List Node :=
  ((imports.filter Import.sole).map Import.statement).foldl addStatement []

/-- The root that an import binds: the framework itself, not one of its members. -/
def rootOf? (entry : Import) : Option FrameworkRoot :=
  match entry.style with
  | .default | .namespaced | .require => entry.localName?.map fun name => ⟨name, entry.binding?⟩
  | .named | .sideEffect => none

/-- How a file with the given imports uses the framework; none if it is to be left alone. -/
def detect? (imports : List Import) (options : Options) : Option Framework :=
  let own := imports.filter fun entry => entry.package == package
  if own.isEmpty && !options.skipImportDetection then
    none
  else
    let roots := match own.filterMap rootOf? with
      | [] => [⟨options.testFunctionName?.getD defaultName, none⟩]
      | roots => roots
    some ⟨roots, statementsOf own⟩

/-- Does an identifier, spelled `name` and bound to `binding?`, refer to the test function? -/
def refersTo (framework : Framework) (table : ScopeTable) (name : String)
    (binding? : Option BindingId) : Bool :=
  framework.roots.any fun root =>
    match root.binding? with
    | some binding => binding? == some binding
    | none =>
      root.name == name && binding?.all fun binding =>
        (table.bindings[binding]?).any fun entry => entry.scope == ScopeTable.programScope

end Framework

end JestMigration
