/-
# `Batch` — one run over several files

The options hold for the whole run, and a fault in them ends it.  A file that
fails does not: it is reported, keeps its bytes, and the next file is taken.
Every file is read from the directory as the files before it left it.
-/
import JestMigration.Directory
import JestMigration.Invocation
import JestMigration.Migration
import JestMigration.Options.Config

namespace JestMigration

/-- What is reported of one file. -/
structure FileReport where
  /-- The path as it was given. -/
  file : String
  changed : Bool
  warnings : List String
  /-- The new text, if it was asked for. -/
  output? : Option String
  failure? : Option Failure
  deriving DecidableEq

/-- The counts of a run. -/
structure Summary where
  scanned : Nat := 0
  changed : Nat := 0
  failed : Nat := 0
  warnings : Nat := 0
  deriving DecidableEq

/-- What is reported of a run. -/
structure Report where
  files : List FileReport := []
  summary : Summary := {}
  deriving DecidableEq

/-- The report on a file that failed. -/
def FileReport.ofFailure (file : String) (failure : Failure) : FileReport :=
  ⟨file, false, [], none, some failure⟩

/-- The report on a file that was processed. -/
def FileReport.ofMigrated (invocation : Invocation) (file : String) (migrated : Migrated) :
    FileReport :=
  { file
    changed := migrated.changed
    warnings := migrated.diagnostics.map (·.render file)
    output? := if invocation.verbose then some migrated.output else none
    failure? := none }

/-- Counts one more file. -/
def Summary.count (summary : Summary) (report : FileReport) : Summary :=
  { scanned := summary.scanned + 1
    changed := if report.changed then summary.changed + 1 else summary.changed
    failed := if report.failure?.isSome then summary.failed + 1 else summary.failed
    warnings := summary.warnings + report.warnings.length }

/-- Adds a file to the report. -/
def Report.add (report : Report) (file : FileReport) : Report :=
  ⟨report.files ++ [file], report.summary.count file⟩

namespace Batch

/-- The text of a file, or the failure to read it. -/
def read (directory : Directory) (path : String) : Except Failure String :=
  match directory.read path with
  | .ok text => .ok text
  | .error obstacle => .error (.unreadable path obstacle.message)

/-- The options of the configuration file, if one is named. -/
def configured (directory : Directory) (invocation : Invocation) : Except Failure Options :=
  match invocation.config? with
  | none => .ok {}
  | some path =>
    match read directory path with
    | .error failure => .error failure
    | .ok text =>
      match Options.ofConfig text with
      | .ok options => .ok options
      | .error fault => .error (fault.failure path)

/-- The options of the run: those of the arguments go over those of the configuration file. -/
def options (directory : Directory) (invocation : Invocation) : Except Failure Options :=
  match configured directory invocation with
  | .error failure => .error failure
  | .ok given =>
    let skipImportDetection := invocation.skipImportDetection || given.skipImportDetection
    match invocation.testFunctionName? with
    | none => .ok { given with skipImportDetection }
    | some name =>
      if Options.isIdentifier name then .ok ⟨skipImportDetection, some name⟩
      else .error (.invalidRequest s!"--test-function-name '{name}' is not a valid identifier")

/-- Reads a file and migrates its text. -/
def migrated (parser : Parser) (options : Options) (directory : Directory) (path : String) :
    Except Failure Migrated :=
  match read directory path with
  | .ok text => migrateFile parser path text options
  | .error failure => .error failure

/-- Processes one file: the report on it, and the directory afterwards. -/
def process (parser : Parser) (invocation : Invocation) (options : Options)
    (directory : Directory) (path : String) : FileReport × Directory :=
  match migrated parser options directory path with
  | .error failure => (.ofFailure path failure, directory)
  | .ok migrated =>
    let written :=
      if migrated.changed && !invocation.dryRun then directory.write path migrated.output
      else directory
    (.ofMigrated invocation path migrated, written)

/-- Processes files one after the other. -/
def processAll (parser : Parser) (invocation : Invocation) (options : Options) :
    Report → Directory → List String → Report × Directory
  | report, directory, [] => (report, directory)
  | report, directory, path :: paths =>
    let (file, directory) := process parser invocation options directory path
    processAll parser invocation options (report.add file) directory paths

/-- Runs over all files of an invocation. -/
def run (parser : Parser) (invocation : Invocation) (directory : Directory) :
    Except Failure Report × Directory :=
  match options directory invocation with
  | .error failure => (.error failure, directory)
  | .ok options =>
    let (report, directory) := processAll parser invocation options {} directory invocation.files
    (.ok report, directory)

end Batch

end JestMigration
