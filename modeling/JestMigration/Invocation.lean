/-
# `Invocation` — the arguments of the command line

Arguments are read from left to right.  An option waits for its value, and a
run of files for its end; both are settled by the next option, by a file after
an option, or by the end of the arguments.  An argument that is not known, or a
flag with a value, is refused at once, before what waits is settled.
-/

namespace JestMigration

/-- What the command line asks for. -/
structure Invocation where
  skipImportDetection : Bool := false
  testFunctionName? : Option String := none
  /-- The configuration file. -/
  config? : Option String := none
  /-- Report without writing files. -/
  dryRun : Bool := false
  /-- Show the new text of each file in the report. -/
  verbose : Bool := false
  files : List String := []
  deriving DecidableEq

namespace Invocation

/-- Switches without a value. -/
inductive Flag where
  | skipImportDetection
  | dryRun
  | verbose
  | help
  deriving DecidableEq

/-- Switches with a value. -/
inductive Slot where
  | testFunctionName
  | config
  deriving DecidableEq

/-- What a name after two dashes stands for. -/
inductive Switch where
  | flag (flag : Flag)
  | slot (slot : Slot)
  deriving DecidableEq

/-- The switch with a name. -/
def Switch.ofName? : String → Option Switch
  | "skip-import-detection" => some (.flag .skipImportDetection)
  | "dry-run" => some (.flag .dryRun)
  | "verbose" => some (.flag .verbose)
  | "help" => some (.flag .help)
  | "test-function-name" => some (.slot .testFunctionName)
  | "config" => some (.slot .config)
  | _ => none

/-- Why arguments are refused. -/
inductive Fault where
  /-- No file is named. -/
  | noFile
  /-- There is no such switch. -/
  | unknown (argument : String)
  /-- A switch lacks its value. -/
  | noValue (slot : Slot)
  /-- A path is empty. -/
  | emptyPath
  /-- A switch is given twice. -/
  | repeated (switch : Switch)
  /-- A flag is given a value. -/
  | needlessValue (flag : Flag)
  /-- Help is asked for, so nothing is done. -/
  | helpWanted
  deriving DecidableEq

/-- The fault in words. -/
def Fault.message : Fault → String
  | .noFile => "no file given"
  | .unknown argument => s!"unexpected argument '{argument}'"
  | .noValue _ => "a value is required"
  | .emptyPath => "a path must not be empty"
  | .repeated _ => "an option cannot be used more than once"
  | .needlessValue _ => "unexpected value for a flag"
  | .helpWanted => "usage: [OPTIONS] <FILE>..."

/-- An argument by its form. -/
inductive Argument where
  /-- Two dashes: only files follow. -/
  | filesFollow
  | long (name : String) (value? : Option String)
  | short (letters : List Char)
  | plain (text : String)
  deriving DecidableEq

/-- The form of an argument. -/
def Argument.ofText (text : String) : Argument :=
  match text.toList with
  | ['-', '-'] => .filesFollow
  | '-' :: '-' :: rest =>
    let name := String.ofList (rest.takeWhile (· != '='))
    match rest.dropWhile (· != '=') with
    | _ :: value => .long name (some (String.ofList value))
    | [] => .long name none
  | '-' :: letter :: letters => .short (letter :: letters)
  | _ => .plain text

/-- Raises a flag that is not raised yet. -/
def raise (invocation : Invocation) (flag : Flag) : Except Fault Invocation :=
  let repeated : Except Fault Invocation := .error (.repeated (.flag flag))
  match flag with
  | .skipImportDetection =>
    if invocation.skipImportDetection then repeated
    else .ok { invocation with skipImportDetection := true }
  | .dryRun => if invocation.dryRun then repeated else .ok { invocation with dryRun := true }
  | .verbose => if invocation.verbose then repeated else .ok { invocation with verbose := true }
  | .help => .error .helpWanted

/-- Gives a value to a slot that has none yet. -/
def assign (invocation : Invocation) (slot : Slot) (value : String) : Except Fault Invocation :=
  let repeated : Except Fault Invocation := .error (.repeated (.slot slot))
  match slot with
  | .testFunctionName =>
    if invocation.testFunctionName?.isSome then repeated
    else .ok { invocation with testFunctionName? := some value }
  | .config =>
    if invocation.config?.isSome then repeated
    else if value = "" then .error .emptyPath
    else .ok { invocation with config? := some value }

/-- Adds files to the batch. -/
def addFiles (invocation : Invocation) (paths : List String) : Except Fault Invocation :=
  if paths.contains "" then .error .emptyPath
  else .ok { invocation with files := invocation.files ++ paths }

/-- What has been read but not settled. -/
inductive Waiting where
  | nothing
  | slot (slot : Slot) (value? : Option String)
  | files (paths : List String)
  deriving DecidableEq

/-- The arguments read so far. -/
structure Reading where
  settled : Invocation := {}
  waiting : Waiting := .nothing
  /-- Are all further arguments files? -/
  filesOnly : Bool := false

/-- Settles what waits. -/
def Reading.settle (reading : Reading) : Except Fault Invocation :=
  match reading.waiting with
  | .nothing => .ok reading.settled
  | .slot slot none => .error (.noValue slot)
  | .slot slot (some value) => reading.settled.assign slot value
  | .files paths => reading.settled.addFiles paths

/-- Settles what waits and goes on from there. -/
def Reading.settleThen (reading : Reading) (next : Invocation → Except Fault Invocation)
    (waiting : Waiting) : Except Fault Reading :=
  match reading.settle with
  | .error fault => .error fault
  | .ok settled =>
    match next settled with
    | .ok settled => .ok { reading with settled, waiting }
    | .error fault => .error fault

/-- Reads a file. -/
def Reading.file (reading : Reading) (path : String) : Except Fault Reading :=
  match reading.waiting with
  | .files paths => .ok { reading with waiting := .files (paths ++ [path]) }
  | _ => reading.settleThen .ok (.files [path])

/-- Reads an argument that no switch can be: the value that is waited for, or a file. -/
def Reading.plain (reading : Reading) (text : String) : Except Fault Reading :=
  match reading.waiting with
  | .slot slot none => .ok { reading with waiting := .slot slot (some text) }
  | _ => reading.file text

/-- Reads one argument. -/
def Reading.next (reading : Reading) (text : String) : Except Fault Reading :=
  if reading.filesOnly then
    reading.file text
  else
    match Argument.ofText text with
    | .filesFollow => .ok { reading with filesOnly := true }
    | .short letters =>
      if letters.head? = some 'h' then reading.settleThen (·.raise .help) .nothing
      else .error (.unknown text)
    | .plain text => reading.plain text
    | .long name value? =>
      match Switch.ofName? name, value? with
      | none, _ => .error (.unknown text)
      | some (.flag flag), some _ => .error (.needlessValue flag)
      | some (.flag flag), none => reading.settleThen (·.raise flag) .nothing
      | some (.slot slot), some value => reading.settleThen (·.assign slot value) .nothing
      | some (.slot slot), none => reading.settleThen .ok (.slot slot none)

/-- Reads arguments in order. -/
def Reading.all (reading : Reading) : List String → Except Fault Reading
  | [] => .ok reading
  | text :: rest =>
    match reading.next text with
    | .ok reading => reading.all rest
    | .error fault => .error fault

/-- What the arguments ask for.  At least one file has to be named. -/
def ofArguments (arguments : List String) : Except Fault Invocation :=
  match Reading.all {} arguments with
  | .error fault => .error fault
  | .ok reading =>
    match reading.settle with
    | .error fault => .error fault
    | .ok invocation => if invocation.files.isEmpty then .error .noFile else .ok invocation

end Invocation

end JestMigration
