/-
# `Json` — JSON documents and how reports print them

An object lists its fields in the order in which they are printed.  Nested
values are indented by two spaces a level, an empty list or object stands on
one line, and only quotes, backslashes and control characters are escaped.
-/

namespace JestMigration

/-- A document of the kinds of values that reports need. -/
inductive Json where
  | boolean (value : Bool)
  | number (value : Nat)
  | text (value : String)
  | list (items : List Json)
  | object (fields : List (String × Json))

namespace Json

/-- The lower-case hexadecimal digits of a code below 256. -/
def hexPair (code : Nat) : List Char :=
  [Nat.digitChar (code / 16), Nat.digitChar (code % 16)]

/-- A character as it stands between quotes. -/
def escape (c : Char) : List Char :=
  if c = '"' then ['\\', '"']
  else if c = '\\' then ['\\', '\\']
  else if c = '\n' then ['\\', 'n']
  else if c = '\r' then ['\\', 'r']
  else if c = '\t' then ['\\', 't']
  else if c = '\x08' then ['\\', 'b']
  else if c = '\x0c' then ['\\', 'f']
  else if c.toNat < 0x20 then ['\\', 'u', '0', '0'] ++ hexPair c.toNat
  else [c]

/-- A text between quotes. -/
def quote (value : String) : String :=
  String.ofList ('"' :: value.toList.flatMap escape ++ ['"'])

/-- A line break and the blanks that begin the next line. -/
def newLine (depth : Nat) : String :=
  String.ofList ('\n' :: List.replicate (2 * depth) ' ')

mutual

/-- Prints a value that begins on a line indented to `depth`. -/
def renderAt (depth : Nat) : Json → String
  | .boolean value => if value then "true" else "false"
  | .number value => String.ofList (Nat.toDigits 10 value)
  | .text value => quote value
  | .list [] => "[]"
  | .list (item :: items) =>
    "[" ++ newLine (depth + 1) ++ renderAt (depth + 1) item ++ renderItems (depth + 1) items ++
      newLine depth ++ "]"
  | .object [] => "\x7b\x7d"
  | .object ((name, value) :: fields) =>
    "\x7b" ++ newLine (depth + 1) ++ quote name ++ ": " ++ renderAt (depth + 1) value ++
      renderFields (depth + 1) fields ++ newLine depth ++ "\x7d"

/-- Prints the further items of a list. -/
def renderItems (depth : Nat) : List Json → String
  | [] => ""
  | item :: items => "," ++ newLine depth ++ renderAt depth item ++ renderItems depth items

/-- Prints the further fields of an object. -/
def renderFields (depth : Nat) : List (String × Json) → String
  | [] => ""
  | (name, value) :: fields =>
    "," ++ newLine depth ++ quote name ++ ": " ++ renderAt depth value ++ renderFields depth fields

end

/-- The text of a document. -/
def render (json : Json) : String :=
  json.renderAt 0

end Json

end JestMigration
