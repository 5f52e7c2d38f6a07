/-
# `Options.Config` — options from a configuration file

A configuration file is a TOML document whose keys are options.  The name of
the test function has to be an identifier.
-/
import JestMigration.Failure
import JestMigration.Toml.Document

namespace JestMigration.Options

/-- Why a text is no configuration. -/
inductive ConfigFault where
  /-- The text is not a valid document. -/
  | malformed
  /-- A key or its value is not an option. -/
  | option (fault : Fault)
  /-- The name of the test function is not an identifier. -/
  | invalidName (name : String)
  deriving DecidableEq

/-- The fault in words. -/
def ConfigFault.message : ConfigFault → String
  | .malformed => "TOML parse error"
  | .option fault => fault.message
  | .invalidName name => s!"testFunctionName '{name}' is not a valid identifier"

/-- The failure of reading the configuration file at a path. -/
def ConfigFault.failure (path : String) (fault : ConfigFault) : Failure :=
  .invalidConfig path fault.message

/-- The options that a configuration file gives. -/
def ofConfig (text : String) : Except ConfigFault Options :=
  match Toml.settings? text with
  | none => .error .malformed
  | some settings =>
    match ofSettings settings with
    | .error fault => .error (.option fault)
    | .ok options =>
      match options.testFunctionName? with
      | some name => if isIdentifier name then .ok options else .error (.invalidName name)
      | none => .ok options

end JestMigration.Options
