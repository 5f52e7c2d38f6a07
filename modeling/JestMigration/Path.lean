/-
# `Path` — file names written with slashes

A path is taken apart at its slashes.  Empty components and single dots stand
for nothing; two dots go up.
-/

namespace JestMigration.Path

/-- The parts of a path between its slashes. -/
def split (path : String) : List String :=
  (path.toList.splitOn '/').map String.ofList

/-- The components that a path names one after the other. -/
def components (path : String) : List String :=
  (split path).filter fun component => component != "" && component != "."

/-- The last component, unless the path ends by going up. -/
def fileName? (path : String) : Option String :=
  match (components path).getLast? with
  | some ".." => none
  | last => last

/-- What follows the last dot of a file name.  A dot in front starts no extension. -/
def extensionOf? (fileName : String) : Option String :=
  let reversed := fileName.toList.reverse
  match reversed.dropWhile (· != '.') with
  | _ :: _ :: _ => some (String.ofList (reversed.takeWhile (· != '.')).reverse)
  | _ => none

/-- The extension of the file that a path names. -/
def extension? (path : String) : Option String :=
  (fileName? path).bind extensionOf?

end JestMigration.Path
