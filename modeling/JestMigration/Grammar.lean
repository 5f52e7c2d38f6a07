/-
# `Grammar` — which language a file is written in

The extension of a file chooses its grammar.  Parsing itself is a parameter of
the migration: a `Parser` gives the tree of a text, or none when the text does
not follow the grammar.
-/
import JestMigration.Failure
import JestMigration.Path
import JestMigration.Syntax.Tree
import JestMigration.Text.Blank
import JestMigration.Text.LowerCase

namespace JestMigration

/-- The languages test files are written in. -/
inductive Grammar where
  | javascript
  | typescript
  | tsx
  deriving DecidableEq

namespace Grammar

/-- All grammars, in the order in which they are asked. -/
def all : List Grammar :=
  [.javascript, .typescript, .tsx]

/-- The name a grammar goes by in messages. -/
def name : Grammar → String
  | .javascript => "tree-sitter-javascript"
  | .typescript => "tree-sitter-typescript"
  | .tsx => "tree-sitter-tsx"

/-- The language of a grammar. -/
def language : Grammar → String
  | .javascript => "JavaScript"
  | .typescript => "TypeScript"
  | .tsx => "TSX"

/-- The extensions of files in the language. -/
def extensions : Grammar → List String
  | .javascript => ["js", "jsx", "mjs", "cjs"]
  | .typescript => ["ts", "mts", "cts"]
  | .tsx => ["tsx"]

/-- Every extension that some grammar reads, in alphabetical order. -/
def supportedExtensions : List String :=
  (all.flatMap extensions).mergeSort fun a b => decide (a ≤ b)

/-- An extension without blanks around it, without a dot in front, and in lower case. -/
def normalizeExtension? (extension : String) : Option String :=
  let name := match (Text.trim extension).toList with
    | '.' :: rest => rest
    | trimmed => trimmed
  if name.isEmpty then none else some (Text.toLower (String.ofList name))

/-- The extension that decides on the grammar of a file. -/
def extensionOf? (path : String) : Option String :=
  (Path.extension? path).bind normalizeExtension?

/-- The grammar for an extension in its normal form. -/
def ofExtension? (extension : String) : Option Grammar :=
  all.find? fun grammar => grammar.extensions.contains extension

/-- The grammar for a file. -/
def ofPath (path : String) : Except Failure Grammar :=
  let extension? := extensionOf? path
  match extension?.bind ofExtension? with
  | some grammar => .ok grammar
  | none => .error (.noGrammar (extension?.getD "<none>") supportedExtensions)

/-- What is said of a text that does not follow the grammar. -/
def syntaxErrors (grammar : Grammar) : Failure :=
  .syntaxErrors grammar.name s!"Syntax errors detected in {grammar.language} source"

end Grammar

/-- Gives the tree of a text, none if the text does not follow the grammar. -/
abbrev Parser := Grammar → String → Option Tree

/-- The tree of a file's text. -/
def Parser.parse (parser : Parser) (path text : String) : Except Failure Tree :=
  match Grammar.ofPath path with
  | .ok grammar =>
    match parser grammar text with
    | some tree => .ok tree
    | none => .error grammar.syntaxErrors
  | .error failure => .error failure

end JestMigration
