/-
# `Syntax.Tree` — concrete syntax trees

A tree is what a parser makes of a source text: labelled nodes with their
children in source order, punctuation and keywords included.  The kinds that
the migration looks at have constructors of their own; any other kind keeps its
name.  `Tree.ofListing?` reads a tree from its nodes listed in preorder.
-/
import JestMigration.Span

namespace JestMigration

/-- What a node is.  A keyword or punctuation token has its own text as its kind, so the token
`function` and the function literal share one. -/
inductive Kind where
  | program
  | comment
  | identifier
  | propertyIdentifier
  | typeIdentifier
  | shorthandProperty
  | shorthandPattern
  | memberExpression
  | callExpression
  | arguments
  | string
  | object
  | expressionStatement
  | statementBlock
  | switchBody
  | switchCase
  | switchDefault
  | forStatement
  | forInStatement
  | catchClause
  | classDeclaration
  | classStaticBlock
  | arrowFunction
  | functionExpression
  | function
  | generatorFunction
  | functionDeclaration
  | generatorDeclaration
  | methodDefinition
  | variableDeclaration
  | lexicalDeclaration
  | variableDeclarator
  | requiredParameter
  | optionalParameter
  | objectPattern
  | arrayPattern
  | restPattern
  | pairPattern
  | assignmentPattern
  | objectAssignmentPattern
  | importStatement
  | importClause
  | namedImports
  | namespaceImport
  | importSpecifier
  | other (name : String)
  deriving DecidableEq

namespace Kind

/-- The name of a kind in the grammar. -/
def name : Kind → String
  | .program => "program"
  | .comment => "comment"
  | .identifier => "identifier"
  | .propertyIdentifier => "property_identifier"
  | .typeIdentifier => "type_identifier"
  | .shorthandProperty => "shorthand_property_identifier"
  | .shorthandPattern => "shorthand_property_identifier_pattern"
  | .memberExpression => "member_expression"
  | .callExpression => "call_expression"
  | .arguments => "arguments"
  | .string => "string"
  | .object => "object"
  | .expressionStatement => "expression_statement"
  | .statementBlock => "statement_block"
  | .switchBody => "switch_body"
  | .switchCase => "switch_case"
  | .switchDefault => "switch_default"
  | .forStatement => "for_statement"
  | .forInStatement => "for_in_statement"
  | .catchClause => "catch_clause"
  | .classDeclaration => "class_declaration"
  | .classStaticBlock => "class_static_block"
  | .arrowFunction => "arrow_function"
  | .functionExpression => "function_expression"
  | .function => "function"
  | .generatorFunction => "generator_function"
  | .functionDeclaration => "function_declaration"
  | .generatorDeclaration => "generator_function_declaration"
  | .methodDefinition => "method_definition"
  | .variableDeclaration => "variable_declaration"
  | .lexicalDeclaration => "lexical_declaration"
  | .variableDeclarator => "variable_declarator"
  | .requiredParameter => "required_parameter"
  | .optionalParameter => "optional_parameter"
  | .objectPattern => "object_pattern"
  | .arrayPattern => "array_pattern"
  | .restPattern => "rest_pattern"
  | .pairPattern => "pair_pattern"
  | .assignmentPattern => "assignment_pattern"
  | .objectAssignmentPattern => "object_assignment_pattern"
  | .importStatement => "import_statement"
  | .importClause => "import_clause"
  | .namedImports => "named_imports"
  | .namespaceImport => "namespace_import"
  | .importSpecifier => "import_specifier"
  | .other name => name

/-- The kinds with a constructor of their own. -/
def recognised : List Kind :=
  [ .program, .comment, .identifier, .propertyIdentifier, .typeIdentifier, .shorthandProperty,
    .shorthandPattern, .memberExpression, .callExpression, .arguments, .string, .object,
    .expressionStatement, .statementBlock, .switchBody, .switchCase, .switchDefault,
    .forStatement, .forInStatement, .catchClause, .classDeclaration, .classStaticBlock,
    .arrowFunction, .functionExpression, .function, .generatorFunction, .functionDeclaration,
    .generatorDeclaration, .methodDefinition, .variableDeclaration, .lexicalDeclaration,
    .variableDeclarator, .requiredParameter, .optionalParameter, .objectPattern, .arrayPattern,
    .restPattern, .pairPattern, .assignmentPattern, .objectAssignmentPattern, .importStatement,
    .importClause, .namedImports, .namespaceImport, .importSpecifier ]

/-- The kind with a given name. -/
def ofName (name : String) : Kind :=
  (recognised.find? fun kind => kind.name == name).getD (.other name)

/-- Functions of every form, declarations and methods included. -/
def isFunction : Kind → Bool
  | .arrowFunction | .functionExpression | .function | .generatorFunction
  | .functionDeclaration | .generatorDeclaration | .methodDefinition => true
  | _ => false

/-- Function literals that can be handed over as a callback. -/
def isCallbackLiteral : Kind → Bool
  | .arrowFunction | .functionExpression | .function | .generatorFunction => true
  | _ => false

end Kind

/-- The role of a node in its parent, for the roles the migration asks for. -/
inductive Field where
  | renamed
  | arguments
  | body
  | function
  | key
  | kind
  | left
  | name
  | object
  | parameter
  | parameters
  | pattern
  | property
  | source
  | value
  deriving DecidableEq

/-- Reads a field name of the grammar. -/
def Field.ofName? : String → Option Field
  | "alias" => some .renamed
  | "arguments" => some .arguments
  | "body" => some .body
  | "function" => some .function
  | "key" => some .key
  | "kind" => some .kind
  | "left" => some .left
  | "name" => some .name
  | "object" => some .object
  | "parameter" => some .parameter
  | "parameters" => some .parameters
  | "pattern" => some .pattern
  | "property" => some .property
  | "source" => some .source
  | "value" => some .value
  | _ => none

/-- What a tree says of one node besides its children. -/
structure Label where
  kind : Kind
  /-- Tokens of punctuation and keywords are not named. -/
  named : Bool
  span : Span
  /-- The role in the parent. -/
  field? : Option Field := none
  deriving DecidableEq

/-- A concrete syntax tree. -/
inductive Tree where
  | node (label : Label) (children : List Tree)

namespace Tree

/-- What the tree says of its topmost node. -/
def label : Tree → Label
  | .node label _ => label

/-- The subtrees right below the topmost node, in source order. -/
def children : Tree → List Tree
  | .node _ children => children

mutual

/-- The number of nodes. -/
def size : Tree → Nat
  | .node _ children => sizeAll children + 1

/-- The number of nodes of several trees. -/
def sizeAll : List Tree → Nat
  | [] => 0
  | tree :: rest => tree.size + sizeAll rest

end

theorem size_eq (tree : Tree) : tree.size = sizeAll tree.children + 1 := by
  cases tree
  simp only [size, children]

theorem size_pos (tree : Tree) : 0 < tree.size := by
  rw [size_eq]
  exact Nat.succ_pos _

theorem sizeAll_append (xs ys : List Tree) : sizeAll (xs ++ ys) = sizeAll xs + sizeAll ys := by
  induction xs with
  | nil => simp [sizeAll]
  | cons tree rest ih => simp only [List.cons_append, sizeAll, ih, Nat.add_assoc]

/-- Puts a node on top of the trees read after it, as many as it has children. -/
def adopt (label : Label) (count : Nat) (trees : List Tree) : Option (List Tree) :=
  if count ≤ trees.length then
    some (.node label (trees.take count) :: trees.drop count)
  else
    none

/-- Reads a tree from its nodes in preorder, each with its number of children.  The listing is
taken from its end, so that the children of a node are complete when it is reached. -/
def ofListing? (listing : List (Label × Nat)) : Option Tree :=
  match listing.foldr (fun entry trees? => trees?.bind (adopt entry.1 entry.2)) (some []) with
  | some [tree] => some tree
  | _ => none

end Tree

end JestMigration
