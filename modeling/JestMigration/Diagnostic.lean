/-
# `Diagnostic` — what the migration leaves to its user

A `Finding` is a construct that is not converted, or not in full.  Raised
somewhere, it becomes a `Diagnostic`: a message with its place, or with none if
it is about the whole file.  The same message is reported once for a place;
reports are put in source order, those about the file first.
-/
import JestMigration.Modifier
import JestMigration.Rule
import JestMigration.Source.Lines
import JestMigration.Syntax.Node

namespace JestMigration

/-- A construct that is not converted in full. -/
inductive Finding where
  /-- A companion package that counts on the framework to be left. -/
  | incompatiblePackage (package : String)
  /-- A registration chain without a target call. -/
  | unsupportedChain (reason : Unsupported)
  /-- A context method without a rule. -/
  | unsupportedMember (context method : String)
  /-- A context method that is handed on instead of being called. -/
  | indirectUse (context method : String)
  /-- A call with too few arguments. -/
  | missingArguments (context method : String) (arity : Arity)
  /-- A context pattern with defaults, rests or nested patterns. -/
  | unsupportedPattern
  /-- Parameters after the context. -/
  | extraParameters
  deriving DecidableEq

/-- What is said about a chain without a target call. -/
def Unsupported.message : Unsupported → String
  | .unknownMethod name => s!"Unknown AVA method \"{name}\""
  | .skippedHook => "Skipping setup/teardown hooks is currently not supported"
  | .focusedHook => "Focusing setup/teardown hooks is currently not supported"

/-- What is said about a finding. -/
def Finding.message : Finding → String
  | .incompatiblePackage package =>
    s!"Usage of package \"{package}\" might be incompatible with Jest"
  | .unsupportedChain reason => reason.message
  | .unsupportedMember context method => s!"\"{context}.{method}\" is currently not supported"
  | .indirectUse context method =>
    s!"\"{context}.{method}\" is only supported when called directly"
  | .missingArguments context method arity => s!"\"{context}.{method}\" " ++ arity.describe
  | .unsupportedPattern => "Destructuring the test context this way is currently not supported"
  | .extraParameters =>
    "Test callbacks with parameters after the test context are currently not supported"

/-- Where something begins. -/
structure Place where
  start : Nat
  /-- The line, counted from one. -/
  line : Nat
  deriving DecidableEq

/-- A message with its place, or with none if it is about the whole file. -/
structure Diagnostic where
  place? : Option Place
  message : String
  deriving DecidableEq

namespace Diagnostic

/-- A message about the whole file. -/
def ofFile (message : String) : Diagnostic :=
  ⟨none, message⟩

/-- A message about a node. -/
def ofNode (source : Source) (node : Node) (message : String) : Diagnostic :=
  ⟨some ⟨node.span.start, source.lineAt node.span.start⟩, message⟩

/-- The line of a diagnostic, if it has a place. -/
def line? (diagnostic : Diagnostic) : Option Nat :=
  diagnostic.place?.map Place.line

/-- The diagnostic as it is shown on its own. -/
def display (diagnostic : Diagnostic) : String :=
  match diagnostic.line? with
  | some line => s!"line {line}: {diagnostic.message}"
  | none => diagnostic.message

/-- The diagnostic as a warning about a named file. -/
def render (file : String) (diagnostic : Diagnostic) : String :=
  match diagnostic.line? with
  | some line => s!"jest-codemods warning: ({file} line {line}) {diagnostic.message}"
  | none => s!"jest-codemods warning: ({file}) {diagnostic.message}"

/-! ## Collecting -/

/-- Adds a diagnostic unless it has been recorded before. -/
def record (log : List Diagnostic) (diagnostic : Diagnostic) : List Diagnostic :=
  if diagnostic ∈ log then log else log ++ [diagnostic]

/-- The diagnostics raised, each once, in order of first occurrence. -/
def collect (raised : List Diagnostic) : List Diagnostic :=
  raised.foldl record []

/-- Where a diagnostic is sorted in: by line, then by first byte, the file itself before all. -/
def rank (diagnostic : Diagnostic) : Nat × Nat :=
  match diagnostic.place? with
  | some place => (place.line, place.start + 1)
  | none => (0, 0)

/-- May `a` stand in front of `b`? -/
def precedes (a b : Diagnostic) : Bool :=
  decide (a.rank.1 < b.rank.1) || (a.rank.1 == b.rank.1 && decide (a.rank.2 ≤ b.rank.2))

/-- The diagnostics raised, each once, in source order. -/
def sorted (raised : List Diagnostic) : List Diagnostic :=
  (collect raised).mergeSort precedes

end Diagnostic

end JestMigration
