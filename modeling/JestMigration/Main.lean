/-
# `Main` — the command line

The trees of the files are made by a separate parser: the listing of the tree
of `FILE` is read from `FILE.tree`.  A file without one counts as a file with
syntax errors.  Paths are taken relative to the working directory.
-/
import JestMigration.Program
import JestMigration.Syntax.Listing

namespace JestMigration.Main

/-- The error code for a folder that was to be read as a file. -/
def folderCode : UInt32 := 21

/-- What stands at a path, none if nothing can stand there.  What stands there and cannot be read,
such as a file without permission, is an error. -/
def load? (path : String) : IO (Option Entry) := do
  try
    let bytes ← IO.FS.readBinFile path
    return some (Entry.ofBytes bytes)
  catch error =>
    match error with
    | .noFileOrDirectory .. | .invalidArgument .. => return none
    | .inappropriateType _ code _ =>
      -- Otherwise the path goes on below a file.
      return if code = folderCode then some .folder else none
    | _ => throw error

/-- The entries at some paths. -/
def loadAll (paths : List String) : IO Directory := do
  let mut entries := []
  for path in paths.eraseDups do
    if let some entry ← load? path then
      entries := entries ++ [(Path.components path, entry)]
  return ⟨entries⟩

/-- The listed trees of some files, by the texts of the files. -/
def loadTrees (directory : Directory) (paths : List String) : IO (List (String × Tree)) := do
  let mut trees := []
  for path in paths.eraseDups do
    if let .ok text := directory.read path then
      if let some (.text listing) ← load? (path ++ ".tree") then
        if let some tree := Tree.ofText? listing then
          trees := trees ++ [(text, tree)]
  return trees

/-- The files that a run may read. -/
def pathsOf (arguments : List String) : List String :=
  match Invocation.ofArguments arguments with
  | .ok invocation => invocation.config?.toList ++ invocation.files
  | .error _ => []

/-- Writes the files that differ. -/
def store (before after : Directory) : IO Unit := do
  for (path, entry) in after.files do
    if let .text text := entry then
      unless before.files.contains (path, entry) do
        IO.FS.writeFile path text

end JestMigration.Main

open JestMigration in
/-- Runs the program on the files named by its arguments. -/
def main (arguments : List String) : IO UInt32 := do
  let paths := Main.pathsOf arguments
  let directory ← Main.loadAll paths
  let trees ← Main.loadTrees directory paths
  let outcome := Program.run (fun _ text => trees.lookup text) arguments directory
  Main.store directory outcome.directory
  IO.eprint outcome.stderr
  IO.print outcome.stdout
  return UInt32.ofNat outcome.exitCode
