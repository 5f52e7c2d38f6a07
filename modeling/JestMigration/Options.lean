/-
# `Options` — how the migration is asked to go about a file

Options come as keys with values, from a configuration file or from a program.
Each option may be written in camel case or in snake case, once.  The first key
that cannot be used decides what is said.
-/
import JestMigration.Text.Alphabetic
import JestMigration.Text.Numeric
import JestMigration.Text.Visible

namespace JestMigration

/-- What the user may set. -/
structure Options where
  /-- Take calls of the test function for registrations even if nothing is imported. -/
  skipImportDetection : Bool := false
  /-- The name of the test function where no import gives it. -/
  testFunctionName? : Option String := none
  deriving DecidableEq

/-- The value given for a key.  Of lists and tables only the form matters. -/
inductive Setting where
  | null
  | boolean (value : Bool)
  | integer (value : Int)
  /-- A number that is not an integer, as it is shown. -/
  | real (shown : String)
  | text (value : String)
  | sequence
  | table
  deriving DecidableEq

/-- The value in words. -/
def Setting.describe : Setting → String
  | .null => "null"
  | .boolean value => s!"boolean `{value}`"
  | .integer value => s!"integer `{value}`"
  | .real shown => s!"floating point `{shown}`"
  | .text value => "string " ++ Text.quote value
  | .sequence => "sequence"
  | .table => "map"

namespace Options

/-- Why some keys and values are not options. -/
inductive Fault where
  | unknownKey (key : String)
  | duplicateKey (key : String)
  | wrongType (found : Setting) (expected : String)
  deriving DecidableEq

/-- The fault in words. -/
def Fault.message : Fault → String
  | .unknownKey key =>
    s!"unknown field `{key}`, expected one of `skipImportDetection`, `skip_import_detection`, " ++
      "`testFunctionName`, `test_function_name`"
  | .duplicateKey key => s!"duplicate field `{key}`"
  | .wrongType found expected => s!"invalid type: {found.describe}, expected {expected}"

/-- The options given so far; none where a key has not occurred. -/
structure Given where
  skipImportDetection? : Option Bool := none
  testFunctionName? : Option (Option String) := none

/-- Takes one more key into account. -/
def Given.set (given : Given) (key : String) (setting : Setting) : Except Fault Given :=
  if key = "skipImportDetection" ∨ key = "skip_import_detection" then
    if given.skipImportDetection?.isSome then
      .error (.duplicateKey "skipImportDetection")
    else
      match setting with
      | .boolean value => .ok { given with skipImportDetection? := some value }
      | found => .error (.wrongType found "a boolean")
  else if key = "testFunctionName" ∨ key = "test_function_name" then
    if given.testFunctionName?.isSome then
      .error (.duplicateKey "testFunctionName")
    else
      match setting with
      | .text name => .ok { given with testFunctionName? := some (some name) }
      | .null => .ok { given with testFunctionName? := some none }
      | found => .error (.wrongType found "a string")
  else
    .error (.unknownKey key)

/-- Takes keys into account in order. -/
def Given.setAll (given : Given) : List (String × Setting) → Except Fault Given
  | [] => .ok given
  | (key, setting) :: rest =>
    match given.set key setting with
    | .ok given => given.setAll rest
    | .error fault => .error fault

/-- The options that keys and values stand for. -/
def ofSettings (settings : List (String × Setting)) : Except Fault Options :=
  match Given.setAll {} settings with
  | .ok given => .ok ⟨given.skipImportDetection?.getD false, given.testFunctionName?.getD none⟩
  | .error fault => .error fault

/-- Can the character begin an identifier? -/
def beginsIdentifier (c : Char) : Bool :=
  Text.isAlphabetic c || c == '_' || c == '$'

/-- Can the character stand inside an identifier? -/
def continuesIdentifier (c : Char) : Bool :=
  beginsIdentifier c || Text.isNumeric c

/-- Is the text an identifier? -/
def isIdentifier (name : String) : Bool :=
  match name.toList with
  | [] => false
  | first :: rest => beginsIdentifier first && rest.all continuesIdentifier

end Options

end JestMigration
