/-
# `Program` — what a run prints and how it ends

The report goes to the standard output as JSON, the warnings to the standard
error, one a line.  A run ends with 0, with 1 if a file failed or the options
are at fault, and with 2 if the arguments are refused.
-/
import JestMigration.Batch
import JestMigration.Json

namespace JestMigration

/-- A failure as part of a report. -/
def Failure.toJson (failure : Failure) : Json :=
  let advice := match failure.suggestion? with
    | some suggestion => [("suggestion", .text suggestion)]
    | none => []
  .object ([("type", .text failure.kind), ("message", .text failure.message)] ++ advice)

/-- A failure that ends the run. -/
def Failure.response (failure : Failure) : Json :=
  .object [("error", failure.toJson)]

/-- What is reported of one file. -/
def FileReport.toJson (report : FileReport) : Json :=
  let output := match report.output? with
    | some output => [("output", .text output)]
    | none => []
  let error := match report.failure? with
    | some failure => [("error", failure.toJson)]
    | none => []
  .object ([("file", .text report.file), ("changed", .boolean report.changed),
    ("warnings", .list (report.warnings.map .text))] ++ output ++ error)

/-- The counts of a run. -/
def Summary.toJson (summary : Summary) : Json :=
  .object [("files_scanned", .number summary.scanned), ("files_changed", .number summary.changed),
    ("files_failed", .number summary.failed), ("warnings", .number summary.warnings)]

/-- What is reported of a run. -/
def Report.toJson (report : Report) : Json :=
  .object [("files", .list (report.files.map FileReport.toJson)),
    ("summary", report.summary.toJson)]

/-- The warnings of a run, one a line. -/
def Report.warningLines (report : Report) : String :=
  String.join ((report.files.flatMap (·.warnings)).map (· ++ "\n"))

/-- The version of the program. -/
def version : String := "0.1.0"

/-- How a run ends. -/
structure Outcome where
  exitCode : Nat
  stdout : String
  stderr : String
  /-- The directory afterwards. -/
  directory : Directory
  deriving DecidableEq

namespace Program

/-- The outcome of a run that was carried out or ended by a failure. -/
def conclude (response : Except Failure Report) (directory : Directory) : Outcome :=
  match response with
  | .ok report =>
    { exitCode := if 0 < report.summary.failed then 1 else 0
      stdout := report.toJson.render ++ "\n"
      stderr := report.warningLines
      directory }
  | .error failure =>
    { exitCode := 1, stdout := failure.response.render ++ "\n", stderr := "", directory }

/-- The outcome of arguments that are refused. -/
def refuse (fault : Invocation.Fault) (directory : Directory) : Outcome :=
  { exitCode := if fault = .helpWanted then 0 else 2
    stdout := ""
    stderr := fault.message ++ "\n"
    directory }

/-- Runs the program with its arguments. -/
def run (parser : Parser) (arguments : List String) (directory : Directory) : Outcome :=
  match Invocation.ofArguments arguments with
  | .error fault => refuse fault directory
  | .ok invocation =>
    let (response, directory) := Batch.run parser invocation directory
    conclude response directory

end Program

end JestMigration
