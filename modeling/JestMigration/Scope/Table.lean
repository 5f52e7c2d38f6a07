/-
# `Scope.Table` — lexical scopes and the names bound in them

Scopes and bindings are numbered in the order in which they are made.  A scope
is made inside an older one, so its parent has a smaller number and climbing
from scope to scope ends.  A name is bound at most once in a scope: a second
declaration finds the binding of the first.
-/
import JestMigration.Syntax.Shape

namespace JestMigration

/-- The number of a scope. -/
abbrev ScopeId := Nat

/-- The number of a binding. -/
abbrev BindingId := Nat

/-- What a scope belongs to.  `var` declarations go to the nearest scope that is not a block. -/
inductive ScopeKind where
  | program
  | function
  | block
  deriving DecidableEq

/-- A lexical scope. -/
structure Scope where
  kind : ScopeKind
  parent? : Option ScopeId
  /-- The names bound in the scope itself. -/
  names : List (String × BindingId) := []
  deriving DecidableEq

/-- A name bound in a scope. -/
structure Binding where
  name : String
  scope : ScopeId
  deriving DecidableEq

/-- The scopes and bindings of one tree. -/
structure ScopeTable where
  scopes : Array Scope := #[]
  bindings : Array Binding := #[]
  /-- Which scope a node opened, by the number of the node. -/
  opened : List (Nat × ScopeId) := []
  /-- Which binding a node declares, by the number of the node. -/
  declared : List (Nat × BindingId) := []
  deriving DecidableEq

namespace ScopeTable

/-- The scope of the whole program. -/
def programScope : ScopeId := 0

/-- The scope a node opened. -/
def openedAt? (table : ScopeTable) (node : Node) : Option ScopeId :=
  table.opened.lookup node.id

/-- The binding a declaring node stands for. -/
def declaredAt? (table : ScopeTable) (node : Node) : Option BindingId :=
  table.declared.lookup node.id

/-- The binding of a name in one scope. -/
def boundIn? (table : ScopeTable) (scope : ScopeId) (name : String) : Option BindingId :=
  (table.scopes[scope]?).bind fun entry => entry.names.lookup name

/-- A scope and the scopes around it, the nearest first. -/
def path (table : ScopeTable) (scope : ScopeId) : List ScopeId :=
  match (table.scopes[scope]?).bind Scope.parent? with
  | some parent => if parent < scope then scope :: table.path parent else [scope]
  | none => [scope]
termination_by scope

/-- The nearest binding of a name, seen from a scope. -/
def lookup? (table : ScopeTable) (name : String) (scope : ScopeId) : Option BindingId :=
  (table.path scope).findSome? fun candidate => table.boundIn? candidate name

/-- Is the scope one of a block? -/
def isBlock (table : ScopeTable) (scope : ScopeId) : Bool :=
  (table.scopes[scope]?).any fun entry => entry.kind == .block

/-- The nearest scope around that is not a block. -/
def functionScope (table : ScopeTable) (scope : ScopeId) : ScopeId :=
  ((table.path scope).find? fun candidate => !table.isBlock candidate).getD scope

/-- Makes the scope that a node opens. -/
def openScope (table : ScopeTable) (node : Node) (kind : ScopeKind) (parent? : Option ScopeId) :
    ScopeTable :=
  { table with
    scopes := table.scopes.push { kind, parent? }
    opened := (node.id, table.scopes.size) :: table.opened }

/-- Binds the text of a node in a scope, or finds the binding that is there. -/
def declare (table : ScopeTable) (source : Source) (scope : ScopeId) (node : Node) : ScopeTable :=
  let name := node.text source
  if name.isEmpty then
    table
  else
    match table.boundIn? scope name with
    | some binding => { table with declared := (node.id, binding) :: table.declared }
    | none =>
      let binding := table.bindings.size
      { table with
        scopes := table.scopes.modify scope fun entry =>
          { entry with names := (name, binding) :: entry.names }
        bindings := table.bindings.push { name, scope }
        declared := (node.id, binding) :: table.declared }

/-- Declares several nodes in a scope, in order. -/
def declareAll (table : ScopeTable) (source : Source) (scope : ScopeId) (nodes : List Node) :
    ScopeTable :=
  nodes.foldl (fun table node => table.declare source scope node) table

end ScopeTable

end JestMigration
