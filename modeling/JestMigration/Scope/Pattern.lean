/-
# `Scope.Pattern` — the names that a declaration binds

Each function lists the identifier nodes that a declaration introduces, in the
order in which they are bound.  Where they are bound is not decided here.
-/
import JestMigration.Syntax.Shape

namespace JestMigration

namespace Node

/-- The identifiers that a binding pattern introduces, from left to right. -/
def patternNames (pattern : Node) : List Node :=
  match pattern.kind with
  | .identifier | .shorthandPattern | .typeIdentifier => [pattern]
  | .objectPattern | .arrayPattern | .restPattern =>
    pattern.namedChildren.attach.flatMap fun ⟨child, _⟩ => child.patternNames
  | .pairPattern =>
    match _h : pattern.child? .value with
    | some value => value.patternNames
    | none => []
  | .assignmentPattern | .objectAssignmentPattern =>
    match _h : pattern.child? .left with
    | some left => left.patternNames
    | none => []
  | .requiredParameter | .optionalParameter =>
    match _h : pattern.child? .pattern with
    | some inner => inner.patternNames
    | none => []
  | _ => []
termination_by pattern.tree.size
decreasing_by
  · exact size_lt_of_mem_children (mem_children_of_mem_namedChildren (by assumption))
  all_goals exact size_lt_of_mem_children (mem_children_of_child? _h)

/-- The names of the child in a given role. -/
def namesAt (node : Node) (field : Field) : List Node :=
  match node.child? field with
  | some pattern => pattern.patternNames
  | none => []

/-- The parameters of a function: a single bare one, or the list. -/
def parameters (function : Node) : List Node :=
  match function.child? .parameter with
  | some parameter => [parameter]
  | none =>
    match function.child? .parameters with
    | some list => list.namedChildren
    | none => []

/-- The names that the parameters of a function introduce. -/
def parameterNames (function : Node) : List Node :=
  function.namesAt .parameter ++
    match function.child? .parameters with
    | some list => list.namedChildren.flatMap patternNames
    | none => []

/-- The declarators of a variable declaration. -/
def declarators (declaration : Node) : List Node :=
  declaration.namedChildren.filter fun child => child.kind == .variableDeclarator

/-- The names that a variable declaration introduces. -/
def declaratorNames (declaration : Node) : List Node :=
  declaration.declarators.flatMap fun declarator => declarator.namesAt .name

/-- The local name of one imported member: the new name if it is renamed. -/
def importedAs? (specifier : Node) : Option Node :=
  (specifier.child? .renamed).or (specifier.child? .name)

/-- The names that a part of an import introduces, from the last to the first. -/
def importedNames (part : Node) : List Node :=
  match part.kind with
  | .importClause | .namedImports | .namespaceImport =>
    part.namedChildren.attach.reverse.flatMap fun ⟨child, _⟩ => child.importedNames
  | .identifier => part.patternNames
  | .importSpecifier =>
    match part.importedAs? with
    | some binding => binding.patternNames
    | none => []
  | _ => []
termination_by part.tree.size
decreasing_by exact size_lt_of_mem_children (mem_children_of_mem_namedChildren (by assumption))

/-- The names that an import statement introduces, from the last to the first. -/
def importNames (statement : Node) : List Node :=
  statement.namedChildren.reverse.flatMap importedNames

end Node

end JestMigration
