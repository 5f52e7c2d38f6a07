/-
# `Scope.Build` — the scope table of a tree

The tree is visited from the root down.  Entering a node may bind names in the
scope around it, open a scope and bind names there; its children are then
visited in the scope that `enter` hands on.  Names are bound in their scope as
a whole, so a use may stand before the declaration.
-/
import JestMigration.Scope.Pattern
import JestMigration.Scope.Table

namespace JestMigration

namespace ScopeTable

/-- Opens a scope for a node inside another, and gives its number. -/
def openInside (table : ScopeTable) (node : Node) (kind : ScopeKind) (scope : ScopeId) :
    ScopeTable × ScopeId :=
  (table.openScope node kind (some scope), table.scopes.size)

/-- Opens a function's scope and binds `names` and the parameters there. -/
def openFunction (table : ScopeTable) (source : Source) (function : Node) (names : List Node)
    (scope : ScopeId) : ScopeTable × ScopeId :=
  let (table, inner) := table.openInside function .function scope
  (table.declareAll source inner (names ++ function.parameterNames), inner)

/-- Opens a block's scope. -/
def openBlock (table : ScopeTable) (block : Node) (scope : ScopeId) : ScopeTable × ScopeId :=
  table.openInside block .block scope

/-- The scope that the variable of a `for … in` or `for … of` loop is bound in: none if the loop
declares no variable. -/
def loopScope? (table : ScopeTable) (source : Source) (loop : Node) (scope : ScopeId) :
    Option ScopeId :=
  (loop.child? .kind).map fun kind =>
    if kind.text source == "var" then table.functionScope scope else scope

/-- Enters a node from a scope: binds what it declares, and gives the scope of its children. -/
def enter (table : ScopeTable) (source : Source) (node : Node) (scope : ScopeId) :
    ScopeTable × ScopeId :=
  match node.kind with
  | .functionDeclaration | .generatorDeclaration =>
    (table.declareAll source scope (node.namesAt .name)).openFunction source node [] scope
  | .classDeclaration => (table.declareAll source scope (node.namesAt .name), scope)
  | .functionExpression | .function | .generatorFunction =>
    table.openFunction source node (node.namesAt .name) scope
  | .arrowFunction | .methodDefinition => table.openFunction source node [] scope
  | .statementBlock =>
    if node.parent?.any fun parent => parent.kind.isFunction then (table, scope)
    else table.openBlock node scope
  | .forStatement | .switchBody | .classStaticBlock => table.openBlock node scope
  | .forInStatement =>
    let (table, inner) := table.openBlock node scope
    match table.loopScope? source node inner with
    | some target => (table.declareAll source target (node.namesAt .left), inner)
    | none => (table, inner)
  | .catchClause =>
    let (table, inner) := table.openBlock node scope
    (table.declareAll source inner (node.namesAt .parameter), inner)
  | .variableDeclaration =>
    (table.declareAll source (table.functionScope scope) node.declaratorNames, scope)
  | .lexicalDeclaration => (table.declareAll source scope node.declaratorNames, scope)
  | .importStatement => (table.declareAll source scope node.importNames, scope)
  | _ => (table, scope)

/-- Nothing below an import is visited: its names are bound when it is entered. -/
def visitedChildren (node : Node) : List Node :=
  if node.kind = .importStatement then [] else node.children

theorem mem_children_of_mem_visitedChildren {node child : Node}
    (h : child ∈ visitedChildren node) : child ∈ node.children := by
  unfold visitedChildren at h
  split at h
  · exact absurd h List.not_mem_nil
  · exact h

/-- Visits a node from a scope, and all nodes below it. -/
def visit (source : Source) (table : ScopeTable) (node : Node) (scope : ScopeId) : ScopeTable :=
  let entered := table.enter source node scope
  (visitedChildren node).attach.foldl
    (fun table ⟨child, _⟩ => visit source table child entered.2) entered.1
termination_by node.tree.size
decreasing_by exact Node.size_lt_of_mem_children (mem_children_of_mem_visitedChildren (by assumption))

/-- The scopes and bindings of a tree. -/
def build (source : Source) (tree : Tree) : ScopeTable :=
  let root := Node.root tree
  let table : ScopeTable := ScopeTable.openScope {} root .program none
  root.children.foldl (fun table child => visit source table child programScope) table

end ScopeTable

end JestMigration
