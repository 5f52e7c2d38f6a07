/-
# `Toml.Document` — values, headers and whole documents of TOML

`settings?` reads a document and gives its top-level keys with their values, in
the order in which they were first written; none if the text is not valid or
defines a key twice.
-/
import JestMigration.Toml.Number
import JestMigration.Toml.Table

namespace JestMigration.Toml

/-! ## Values -/

/-- The values of a list after its bracket, at most `bound` of them. -/
def elements? (value? : Reader Setting) : (bound : Nat) → Reader Unit
  | 0, _ => none
  | bound + 1, text =>
    match skipBlank text with
    | ']' :: rest => some ((), rest)
    | text =>
      match value? text with
      | none => none
      | some (_, rest) =>
        match skipBlank rest with
        | ']' :: rest => some ((), rest)
        | ',' :: rest => elements? value? bound rest
        | _ => none

/-- A key, the sign for equality, and a value. -/
def keyValue? (value? : Reader Setting) : Reader (List String × Setting) := fun text =>
  match key? text with
  | some (key, '=' :: rest) =>
    (value? (skipSpaces rest)).map fun (setting, rest) => ((key, setting), rest)
  | _ => none

/-- The pairs of an inline table after its brace, at most `bound` of them. -/
def pairs? (value? : Reader Setting) : (bound : Nat) → Table → Reader Unit
  | 0, _, _ => none
  | bound + 1, table, text =>
    match keyValue? value? text with
    | none => none
    | some ((key, setting), rest) =>
      match table.insertDotted? key setting with
      | none => none
      | some table =>
        match skipSpaces rest with
        | '\x7d' :: rest => some ((), rest)
        | ',' :: rest => pairs? value? bound table rest
        | _ => none

/-- An inline table after its brace. -/
def inlineTable? (value? : Reader Setting) : Reader Unit := fun text =>
  match skipSpaces text with
  | '\x7d' :: rest => some ((), rest)
  | text => pairs? value? text.length Table.empty text

/-- A value with lists and tables nested to a depth. -/
def value? : (depth : Nat) → Reader Setting
  | 0, text => scalar? text
  | depth + 1, text =>
    match text with
    | '[' :: rest =>
      (elements? (value? depth) (rest.length + 1) rest).map fun (_, rest) => (.sequence, rest)
    | '\x7b' :: rest =>
      (inlineTable? (value? depth) rest).map fun (_, rest) => (.table, rest)
    | text => scalar? text
where
  /-- A value without parts. -/
  scalar? : Reader Setting := fun text =>
    match text with
    | 't' :: 'r' :: 'u' :: 'e' :: rest => some (.boolean true, rest)
    | 'f' :: 'a' :: 'l' :: 's' :: 'e' :: rest => some (.boolean false, rest)
    | '"' :: _ | '\'' :: _ => (string? text).map fun (value, rest) => (.text value, rest)
    | _ => number? text

/-! ## Documents -/

/-- A document read up to some line. -/
structure Document where
  /-- The tables that are complete. -/
  root : Table := Table.empty
  /-- The table that the next keys belong to. -/
  current : Table := Table.empty
  /-- The header of that table. -/
  path : List String := []
  /-- Is the header one that may be repeated? -/
  repeated : Bool := false

namespace Document

/-- Puts the current table into its place. -/
def close? (document : Document) : Option Table :=
  match Table.splitKey? document.path with
  | none => some document.current
  | some (path, key) =>
    document.root.update? false
      (fun parent =>
        match parent.find? key with
        | none =>
          let item := if document.repeated then .tables [document.current] else .table document.current
          some (parent.put key item)
        | some (.tables tables) =>
          if document.repeated then some (parent.put key (.tables (document.current :: tables)))
          else none
        | some (.table table) =>
          if !document.repeated && table.implicit then some (parent.put key (.table document.current))
          else none
        | some (.value _) => none)
      path

/-- Opens the table of a header `[key]`: one made in passing keeps its entries. -/
def openTable? (root : Table) (header : List String) : Option Document :=
  (Table.splitKey? header).bind fun (path, key) =>
    let inside (parent : Table) : Option Table :=
      match parent.find? key with
      | none => some Table.empty
      | some (.table table) =>
        if table.implicit && !table.dotted then some (.mk false false table.entries) else none
      | some _ => none
    let taken? := root.update? false
      (fun parent => (inside parent).map fun _ => parent.erase key) path
    taken?.bind fun taken =>
      (findTable? root path).map fun parent? =>
        let current := (parent?.bind inside).getD Table.empty
        { root := taken, current, path := header, repeated := false }
where
  /-- The table that a path leads to, if it is there. -/
  findTable? : Table → List String → Option (Option Table)
    | table, [] => some (some table)
    | table, key :: path =>
      match table.find? key with
      | none => some none
      | some (.table child) => findTable? child path
      | some (.tables (last :: _)) => findTable? last path
      | some _ => none

/-- Opens a further table of a header `[[key]]`. -/
def openRepeated? (root : Table) (header : List String) : Option Document :=
  (Table.splitKey? header).bind fun (path, key) =>
    let checked? := root.update? false
      (fun parent =>
        match parent.find? key with
        | none => some (parent.put key (.tables []))
        | some (.tables _) => some parent
        | some _ => none)
      path
    checked?.map fun root => { root, path := header, repeated := true }

/-- Reads a header after its first bracket. -/
def header? (document : Document) : Reader Document := fun text =>
  match document.close?, text with
  | some root, '[' :: rest =>
    match key? rest with
    | some (key, ']' :: ']' :: rest) => (openRepeated? root key).map fun next => (next, rest)
    | _ => none
  | some root, rest =>
    match key? rest with
    | some (key, ']' :: rest) => (openTable? root key).map fun next => (next, rest)
    | _ => none
  | none, _ => none

/-- Reads a key with its value into the current table. -/
def assignment? (document : Document) : Reader Document := fun text =>
  match keyValue? (value? depthLimit) text with
  | some ((key, setting), rest) =>
    (document.current.insertDotted? key setting).map fun current =>
      ({ document with current }, rest)
  | none => none

/-- Reads the lines of a document, at most `bound` of them. -/
def lines? : (bound : Nat) → Document → List Char → Option Document
  | 0, _, _ => none
  | bound + 1, document, text =>
    match skipSpaces text with
    | [] => some document
    | c :: rest =>
      let read :=
        if c = '[' then document.header? rest
        else if c = '#' ∨ c = '\n' ∨ c = '\r' then some (document, c :: rest)
        else document.assignment? (c :: rest)
      match read with
      | none => none
      | some (document, rest) =>
        match lineEnd? rest with
        | some rest => lines? bound document rest
        | none => none

end Document

/-- Drops the mark that may stand in front of a text to show its encoding. -/
def skipMark (text : List Char) : List Char :=
  match text with
  | c :: rest => if c.toNat = 0xfeff then rest else text
  | [] => []

/-- The top-level keys and values of a document. -/
def settings? (text : String) : Option (List (String × Setting)) :=
  let text := skipMark text.toList
  ((Document.lines? (text.length + 1) {} text).bind Document.close?).map Table.settings

end JestMigration.Toml
