/-
# `Toml.Table` — tables and how they may be extended

A table remembers how it came to be: by a header, in passing as part of a
longer header, or by dotted keys.  A table with a header of its own is not
extended by dotted keys, and a table made by dotted keys gets no header.
Entries stand in the order in which their keys were first written.
-/
import JestMigration.Options

namespace JestMigration.Toml

mutual

/-- What a key stands for. -/
inductive Item where
  | value (setting : Setting)
  | table (table : Table)
  /-- Tables under one repeated header, the last first. -/
  | tables (last : List Table)

/-- A table. -/
inductive Table where
  | mk (implicit dotted : Bool) (entries : List (String × Item))

end

namespace Table

/-- Was the table made only in passing? -/
def implicit : Table → Bool
  | .mk implicit _ _ => implicit

/-- Was the table made by dotted keys? -/
def dotted : Table → Bool
  | .mk _ dotted _ => dotted

/-- The keys with what they stand for. -/
def entries : Table → List (String × Item)
  | .mk _ _ entries => entries

/-- A table with a header of its own, still empty. -/
def empty : Table :=
  .mk false false []

/-- A table made in passing. -/
def passing (dotted : Bool) : Table :=
  .mk true dotted []

/-- What a key stands for. -/
def find? (table : Table) (key : String) : Option Item :=
  table.entries.lookup key

/-- Writes an item under a key: in the place of the key, or at the end. -/
def put (table : Table) (key : String) (item : Item) : Table :=
  let entries := table.entries
  let changed :=
    if (entries.lookup key).isSome then
      entries.map fun entry => if entry.1 = key then (key, item) else entry
    else
      entries ++ [(key, item)]
  .mk table.implicit table.dotted changed

/-- Takes a key out. -/
def erase (table : Table) (key : String) : Table :=
  .mk table.implicit table.dotted (table.entries.filter fun entry => entry.1 != key)

/-- Changes the table that a path leads to, making tables on the way where there are none. -/
def update? (dotted : Bool) (change : Table → Option Table) : List String → Table → Option Table
  | [], table => change table
  | key :: path, table =>
    match table.find? key with
    | none =>
      (update? dotted change path (passing dotted)).map fun child => table.put key (.table child)
    | some (.value _) => none
    | some (.tables []) => none
    | some (.tables (last :: others)) =>
      (update? dotted change path last).map fun child => table.put key (.tables (child :: others))
    | some (.table child) =>
      if dotted && !child.implicit then none
      else (update? dotted change path child).map fun child => table.put key (.table child)

/-- Adds a key that is not there.  A path of dotted keys has to lead to a table made by such. -/
def insert? (table : Table) (path : List String) (key : String) (item : Item) : Option Table :=
  update? true
    (fun target =>
      if target.dotted == path.isEmpty then none
      else if (target.find? key).isSome then none
      else some (target.put key item))
    path table

/-- A key with dots as the path to a table and the key there. -/
def splitKey? (key : List String) : Option (List String × String) :=
  key.getLast?.map fun last => (key.dropLast, last)

/-- Adds what a dotted key stands for. -/
def insertDotted? (table : Table) (key : List String) (setting : Setting) : Option Table :=
  (splitKey? key).bind fun (path, key) => table.insert? path key (.value setting)

/-- The keys with the settings they stand for. -/
def settings (table : Table) : List (String × Setting) :=
  table.entries.map fun (key, item) =>
    match item with
    | .value setting => (key, setting)
    | .table _ => (key, .table)
    | .tables _ => (key, .sequence)

end Table

end JestMigration.Toml
