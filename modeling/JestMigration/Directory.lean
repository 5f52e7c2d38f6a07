/-
# `Directory` — the files a run works on

A directory maps locations to entries; a location is the list of names that lead to
it.  Every location on the way to an entry is a folder.  A path is walked name by
name, so each name has to exist, and has to be a folder if the path goes on,
also where it goes up again.  Nothing is known of what lies outside.
-/
import JestMigration.Failure
import JestMigration.Path

namespace JestMigration

/-- What stands at a location. -/
inductive Entry where
  /-- A file that holds text. -/
  | text (content : String)
  /-- A file whose bytes are no text. -/
  | binary (bytes : List UInt8)
  | folder
  deriving DecidableEq

/-- The file with the given bytes. -/
def Entry.ofBytes (bytes : ByteArray) : Entry :=
  match String.fromUTF8? bytes with
  | some content => .text content
  | none => .binary bytes.toList

/-- Is it a file? -/
def Entry.isFile : Entry → Bool
  | .folder => false
  | _ => true

/-- The names that lead to an entry. -/
abbrev Location := List String

/-- Files and folders by location. -/
structure Directory where
  entries : List (Location × Entry) := []
  deriving DecidableEq

/-- Why a path could not be read. -/
inductive Obstacle where
  | missing
  | isFolder
  | notFolder
  | notText
  /-- A name, or the path as a whole, has too many bytes. -/
  | tooLong
  /-- The path has a NUL character, which no path can have. -/
  | nulInPath
  deriving DecidableEq

/-- The obstacle in words. -/
def Obstacle.message : Obstacle → String
  | .missing => "No such file or directory (os error 2)"
  | .isFolder => "Is a directory (os error 21)"
  | .notFolder => "Not a directory (os error 20)"
  | .notText => "stream did not contain valid UTF-8"
  | .tooLong => "File name too long (os error 36)"
  | .nulInPath => "file name contained an unexpected NUL byte"

namespace Directory

/-- What stands at a location. -/
def entry? (directory : Directory) (location : Location) : Option Entry :=
  match directory.entries.lookup location with
  | some entry => some entry
  | none =>
    if location.isEmpty || directory.entries.any fun (other, _) => location.isPrefixOf other then
      some .folder
    else
      none

/-- The greatest number of bytes of a name. -/
def nameLimit : Nat := 255

/-- The greatest number of bytes of a path. -/
def pathLimit : Nat := 4095

/-- Takes one step of a path; no location stands for the outside. -/
def step (directory : Directory) (location? : Option Location) (name : String) :
    Except Obstacle (Option Location) :=
  match location? with
  | none =>
    if name = "" ∨ name = "." ∨ name = ".." then .ok none
    else if nameLimit < name.utf8ByteSize then .error .tooLong
    else .error .missing
  | some location =>
    match directory.entry? location with
    | none => .error .missing
    | some (.text _) | some (.binary _) => .error .notFolder
    | some .folder =>
      if name = "" ∨ name = "." then .ok (some location)
      else if name = ".." then .ok (if location.isEmpty then none else some location.dropLast)
      else if nameLimit < name.utf8ByteSize then .error .tooLong
      else if (directory.entry? (location ++ [name])).isSome then .ok (some (location ++ [name]))
      else .error .missing

/-- Walks the names of a path. -/
def walk (directory : Directory) : Option Location → List String → Except Obstacle (Option Location)
  | location?, [] => .ok location?
  | location?, name :: names =>
    match directory.step location? name with
    | .ok next? => directory.walk next? names
    | .error obstacle => .error obstacle

/-- The location that a path leads to; a slash in front leads outside. -/
def locate (directory : Directory) (path : String) : Except Obstacle (Option Location) :=
  if path.toList.contains '\x00' then .error .nulInPath
  else if pathLimit < path.utf8ByteSize then .error .tooLong
  else
    match Path.split path with
    | "" :: names => directory.walk none names
    | names => directory.walk (some []) names

/-- The text of the file at a path. -/
def read (directory : Directory) (path : String) : Except Obstacle String :=
  match directory.locate path with
  | .error obstacle => .error obstacle
  | .ok none => .error .isFolder
  | .ok (some location) =>
    match directory.entry? location with
    | some (.text text) => .ok text
    | some (.binary _) => .error .notText
    | some .folder => .error .isFolder
    | none => .error .missing

/-- Puts a text into the file at a location. -/
def put (directory : Directory) (location : Location) (text : String) : Directory :=
  ⟨directory.entries.map fun (other, entry) =>
    if other = location then (other, .text text) else (other, entry)⟩

/-- Puts a text into the file at a path.  A path that leads nowhere changes nothing. -/
def write (directory : Directory) (path text : String) : Directory :=
  match directory.locate path with
  | .ok (some location) => directory.put location text
  | _ => directory

/-- All files with their paths, in the order of the paths. -/
def files (directory : Directory) : List (String × Entry) :=
  let named := directory.entries.filterMap fun (location, entry) =>
    if entry.isFile then some ("/".intercalate location, entry) else none
  named.mergeSort fun a b => decide (a.1 ≤ b.1)

end Directory

end JestMigration
