/-
# `Syntax.Shape` — small questions about the form of a node

What a call is given, which names a member chain is made of, which call or
member expression a node is the head of, what a string literal holds.
-/
import JestMigration.Syntax.Node
import JestMigration.Source

namespace JestMigration

namespace Node

/-- The text of the node. -/
def text (source : Source) (node : Node) : String :=
  source.read node.span

/-- The arguments of a call; none for a tagged template. -/
def arguments? (call : Node) : Option (List Node) :=
  match call.child? .arguments with
  | some list => if list.kind = .arguments then some list.namedChildren else none
  | none => none

/-- The name after the dot, when it is a plain one. -/
def propertyName? (source : Source) (member : Node) : Option String :=
  match member.child? .property with
  | some property =>
    if property.kind = .propertyIdentifier then some (property.text source) else none
  | none => none

/-- Splits `a.b.c` into the identifier `a` and the names `b`, `c`. -/
def memberChain? (source : Source) (node : Node) : Option (Node × List String) :=
  match node.kind with
  | .identifier => some (node, [])
  | .memberExpression =>
    match _h : node.child? .object, node.propertyName? source with
    | some object, some name =>
      match object.memberChain? source with
      | some (root, names) => some (root, names ++ [name])
      | none => none
    | _, _ => none
  | _ => none
termination_by node.tree.size
decreasing_by exact size_lt_of_mem_children (mem_children_of_child? _h)

/-- The parent, if it has the given kind and the node is its child in the given role. -/
def headOf? (kind : Kind) (field : Field) (node : Node) : Option Node :=
  match node.parent? with
  | some parent =>
    if parent.kind = kind ∧ (parent.child? field).map Node.id = some node.id then some parent
    else none
  | none => none

/-- The call whose callee is the node. -/
def callOf? (node : Node) : Option Node :=
  node.headOf? .callExpression .function

/-- The member expression whose object is the node. -/
def memberOf? (node : Node) : Option Node :=
  node.headOf? .memberExpression .object

/-- What a string literal holds between its quotes. -/
def stringValue? (source : Source) (node : Node) : Option String :=
  if node.kind = .string then
    let literal : Source := ⟨node.text source⟩
    if literal.size = 0 then none else literal.slice? ⟨1, literal.size - 1⟩
  else
    none

end Node

end JestMigration
