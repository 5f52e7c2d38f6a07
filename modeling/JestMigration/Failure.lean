/-
# `Failure` — why a file, or a whole run, could not be processed

Each cause is a constructor.  `kind` is the word a report files it under,
`message` the sentence shown, `suggestion?` the advice that goes with it.
-/
import JestMigration.ChangeSet
import JestMigration.Json.Fault

namespace JestMigration

/-- Why a file or a run could not be processed. -/
inductive Failure where
  /-- A file could not be read. -/
  | unreadable (path : String) (reason : String)
  /-- The report could not be written as JSON. -/
  | unprintable (fault : Json.Fault)
  /-- An argument of the command line makes no sense. -/
  | invalidRequest (reason : String)
  /-- The configuration file is not valid. -/
  | invalidConfig (path : String) (reason : String)
  /-- No grammar reads files with that extension. -/
  | noGrammar (extension : String) (supported : List String)
  /-- A grammar could not be loaded. -/
  | grammarSetup (reason : String)
  /-- The text is not in the language of the grammar. -/
  | syntaxErrors (grammar : String) (reason : String)
  /-- Two changes of one file contradict each other. -/
  | conflict (spans : Conflict)
  deriving DecidableEq

namespace Failure

/-- The word under which reports file the failure. -/
def kind : Failure → String
  | .unreadable .. => "io_error"
  | .unprintable .. => "serialization_error"
  | .invalidRequest .. => "invalid_request"
  | .invalidConfig .. => "invalid_config"
  | .noGrammar .. => "no_provider"
  | .grammarSetup .. => "parse_failure"
  | .syntaxErrors .. => "parse_failure"
  | .conflict .. => "conflicting_edits"

/-- The failure in one sentence. -/
def message : Failure → String
  | .unreadable path reason => s!"Failed to read file '{path}': {reason}"
  | .unprintable fault => s!"Failed to serialize response JSON: {fault.message}"
  | .invalidRequest reason => s!"Invalid request: {reason}"
  | .invalidConfig path reason => s!"Invalid config file '{path}': {reason}"
  | .noGrammar extension _ => s!"No parser available for extension '{extension}'"
  | .grammarSetup reason => s!"Tree-sitter language initialization failed: {reason}"
  | .syntaxErrors grammar reason => s!"Provider '{grammar}' failed to parse input: {reason}"
  | .conflict spans =>
    "Conflicting rewrites: " ++ spans.recorded.render ++ " partially overlaps " ++
      spans.refused.render

/-- What the user may do about it. -/
def suggestion? : Failure → Option String
  | .noGrammar _ supported =>
    some ("Supported extensions: " ++ ", ".intercalate (supported.map ("." ++ ·)))
  | .invalidConfig .. => some "Known keys: skipImportDetection, testFunctionName"
  | .conflict .. => some "Report the input file; the rest of the batch is unaffected"
  | _ => none

end Failure

end JestMigration
