/-
# `Scope.Resolve` — which binding a name refers to

A node's scope is found from below: it is the scope opened by the nearest node
around it, itself included.  A reference to a binding is an identifier, or a
shorthand property, that declares nothing and resolves to it.
-/
import JestMigration.Scope.Build

namespace JestMigration

namespace ScopeTable

/-- The innermost scope around a node. -/
def scopeOf (table : ScopeTable) (node : Node) : ScopeId :=
  (node.lineage.findSome? fun id => table.opened.lookup id).getD programScope

/-- The binding that the text of a node refers to where it stands. -/
def resolve? (table : ScopeTable) (source : Source) (node : Node) : Option BindingId :=
  table.lookup? (node.text source) (table.scopeOf node)

/-- Is the node a use of a binding with the given name? -/
def isReference (table : ScopeTable) (source : Source) (name : String) (binding : BindingId)
    (node : Node) : Bool :=
  (node.kind == .identifier || node.kind == .shorthandProperty) &&
    node.text source == name &&
    (table.declaredAt? node).isNone &&
    table.resolve? source node == some binding

/-- The uses of a binding at and below a node, in source order. -/
def references (table : ScopeTable) (source : Source) (root : Node) (binding : BindingId) :
    List Node :=
  match table.bindings[binding]? with
  | some entry =>
    (root.nodes.filter (table.isReference source entry.name binding)).mergeSort
      fun a b => decide (a.span.start ≤ b.span.start)
  | none => []

end ScopeTable

end JestMigration
