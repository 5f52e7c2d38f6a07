/-
# `Migration` — one file from AVA to Jest

The plan for a file takes out the framework's imports and converts each
registration, outer ones first.  `migrate` carries the plan out.  A file that
does not use the framework is left as it is, byte for byte.
-/
import JestMigration.ChangeSet.Render
import JestMigration.Grammar
import JestMigration.Registration

namespace JestMigration

/-- What became of a file. -/
structure Migrated where
  output : String
  /-- Does the output differ from what was there? -/
  changed : Bool
  diagnostics : List Diagnostic
  deriving DecidableEq

namespace Migration

/-- A file left as it is. -/
def unchanged (source : Source) : Migrated :=
  ⟨source.text, false, []⟩

/-- The calls of a tree in source order, outer ones first. -/
def calls (root : Node) : List Node :=
  root.nodes.filter fun node => node.kind == .callExpression

/-- The registrations of a tree in source order, outer ones first. -/
def registrations (table : ScopeTable) (source : Source) (framework : Framework) (root : Node) :
    List Registration :=
  (calls root).filterMap (Registration.ofCall? table source framework)

/-- Reports companion packages and takes out the imports of the framework. -/
def importPlan (imports : List Import) (framework : Framework) : Plan :=
  (Import.incompatible imports).map
      (fun package => .report (.ofFile (Finding.incompatiblePackage package).message)) ++
    framework.statements.map fun statement => .change (.deleteStatementLines statement.span)

/-- The plan for a file; none if it is to be left alone. -/
def plan? (source : Source) (tree : Tree) (options : Options) : Option Plan :=
  let root := Node.root tree
  let table := ScopeTable.build source tree
  let imports := Import.scan table source root
  (Framework.detect? imports options).map fun framework =>
    importPlan imports framework ++
      (registrations table source framework root).flatMap (Registration.plan table source)

/-- Carries out a plan.  The nodes of a parsed file begin and end between characters, and so do the
edits, so there is a new text. -/
def carryOut (source : Source) (plan : Plan) : Except Conflict Migrated :=
  match ChangeSet.applyAll { source } plan.changes with
  | .ok changes =>
    let output := changes.render
    .ok ⟨output, output != source.text, Diagnostic.sorted plan.diagnostics⟩
  | .error conflict => .error conflict

end Migration

/-- Migrates a file, given its text and its tree. -/
def migrate (source : Source) (tree : Tree) (options : Options) : Except Conflict Migrated :=
  match Migration.plan? source tree options with
  | some plan => Migration.carryOut source plan
  | none => .ok (Migration.unchanged source)

/-- Parses a file by the grammar for its path and migrates it. -/
def migrateFile (parser : Parser) (path text : String) (options : Options) :
    Except Failure Migrated :=
  match parser.parse path text with
  | .error failure => .error failure
  | .ok tree =>
    match migrate ⟨text⟩ tree options with
    | .ok migrated => .ok migrated
    | .error conflict => .error (.conflict conflict)

end JestMigration
