/-
# `Toml.Reader` — blanks, strings and keys of TOML

A reader takes what it reads off the front of the remaining characters, or
refuses.  Loops are bounded by the number of characters that remain, which no
reading exceeds.
-/

namespace JestMigration.Toml

/-- Reads something off the front of the remaining characters. -/
abbrev Reader (α : Type) := List Char → Option (α × List Char)

/-! ## Blanks, line breaks, comments -/

/-- Spaces and tabs, which may stand between the parts of a line. -/
def isSpace (c : Char) : Bool :=
  c == ' ' || c == '\t'

/-- Drops spaces and tabs. -/
def skipSpaces (text : List Char) : List Char :=
  text.dropWhile isSpace

/-- Characters that may not be written as they are. -/
def isControl (c : Char) : Bool :=
  (decide (c.toNat < 0x20) && c != '\t') || c.toNat == 0x7f

/-- Drops a line break. -/
def newline? : List Char → Option (List Char)
  | '\n' :: rest => some rest
  | '\r' :: '\n' :: rest => some rest
  | _ => none

/-- Drops a comment, up to the end of its line. -/
def skipComment : List Char → List Char
  | '#' :: rest => rest.dropWhile fun c => !isControl c
  | text => text

/-- Drops what may follow a statement on its line, and the line break. -/
def lineEnd? (text : List Char) : Option (List Char) :=
  match skipComment (skipSpaces text) with
  | [] => some []
  | rest => newline? rest

/-- Drops blanks, line breaks and comments, at most `bound` lines of them. -/
def skipLines : (bound : Nat) → List Char → List Char
  | 0, text => text
  | bound + 1, text =>
    let rest := skipComment (skipSpaces text)
    match newline? rest with
    | some next => skipLines bound next
    | none => rest

/-- Drops all blanks, line breaks and comments. -/
def skipBlank (text : List Char) : List Char :=
  skipLines text.length text

/-! ## Strings -/

/-- The value of a hexadecimal digit. -/
def hexValue? (c : Char) : Option Nat :=
  if '0' ≤ c ∧ c ≤ '9' then some (c.toNat - '0'.toNat)
  else if 'a' ≤ c ∧ c ≤ 'f' then some (c.toNat - 'a'.toNat + 10)
  else if 'A' ≤ c ∧ c ≤ 'F' then some (c.toNat - 'A'.toNat + 10)
  else none

/-- The character with a code point of `count` hexadecimal digits. -/
def codePoint? (count : Nat) : Reader Char := fun text =>
  match (text.take count).mapM hexValue? with
  | some values =>
    let code := values.foldl (fun sum value => 16 * sum + value) 0
    if values.length = count ∧ code.isValidChar then some (Char.ofNat code, text.drop count)
    else none
  | none => none

/-- The character that an escape stands for, read after the backslash. -/
def escaped? : Reader Char
  | 'b' :: rest => some ('\x08', rest)
  | 't' :: rest => some ('\t', rest)
  | 'n' :: rest => some ('\n', rest)
  | 'f' :: rest => some ('\x0c', rest)
  | 'r' :: rest => some ('\r', rest)
  | '"' :: rest => some ('"', rest)
  | '\\' :: rest => some ('\\', rest)
  | 'u' :: rest => codePoint? 4 rest
  | 'U' :: rest => codePoint? 8 rest
  | _ => none

/-- Puts a character in front of what is read. -/
def prepend (c : Char) (read : Option (List Char × List Char)) : Option (List Char × List Char) :=
  read.map fun (value, rest) => (c :: value, rest)

/-- The rest of a string on one line, after its opening quote. -/
def basicTail : (bound : Nat) → Reader (List Char)
  | 0, _ => none
  | _ + 1, [] => none
  | _ + 1, '"' :: rest => some ([], rest)
  | bound + 1, '\\' :: rest =>
    match escaped? rest with
    | some (c, rest) => prepend c (basicTail bound rest)
    | none => none
  | bound + 1, c :: rest => if isControl c then none else prepend c (basicTail bound rest)

/-- The rest of a literal string on one line, after its opening quote. -/
def literalTail : Reader (List Char)
  | [] => none
  | c :: rest =>
    if c = '\'' then some ([], rest)
    else if isControl c then none
    else prepend c (literalTail rest)

/-- A run of quotes in a string of several lines: three of them close the string, and up to two in
front of those belong to it. -/
def closing (quote : Char) (text : List Char) : List Char × Option (List Char) :=
  let run := (text.takeWhile (· == quote)).take 5
  if 3 ≤ run.length then (run.drop 3, some (text.drop run.length))
  else (run, none)

/-- Drops blanks and line breaks. -/
def skipBreaks : List Char → List Char
  | ' ' :: rest => skipBreaks rest
  | '\t' :: rest => skipBreaks rest
  | '\n' :: rest => skipBreaks rest
  | '\r' :: '\n' :: rest => skipBreaks rest
  | text => text

/-- Drops a backslash's line break and all blanks and line breaks after it; none if the line goes
on. -/
def joinedLine? (text : List Char) : Option (List Char) :=
  (newline? (skipSpaces text)).map skipBreaks

/-- The rest of a string of several lines, after its opening quotes. -/
def multilineTail (quote : Char) (escapes : Bool) : (bound : Nat) → Reader (List Char)
  | 0, _ => none
  | _ + 1, [] => none
  | bound + 1, c :: rest =>
    if c = quote then
      match closing quote (c :: rest) with
      | (run, some after) => some (run, after)
      | (run, none) =>
        (multilineTail quote escapes bound ((c :: rest).drop run.length)).map
          fun (value, after) => (run ++ value, after)
    else if c = '\\' ∧ escapes then
      match joinedLine? rest with
      | some rest => multilineTail quote escapes bound rest
      | none =>
        match escaped? rest with
        | some (c, rest) => prepend c (multilineTail quote escapes bound rest)
        | none => none
    else
      match newline? (c :: rest) with
      | some rest => prepend '\n' (multilineTail quote escapes bound rest)
      | none => if isControl c then none else prepend c (multilineTail quote escapes bound rest)

/-- Drops the line break that may follow the opening quotes of a string of several lines. -/
def skipFirstBreak (text : List Char) : List Char :=
  (newline? text).getD text

/-- A string of any form. -/
def string? : Reader String := fun text =>
  let read := match text with
    | '"' :: '"' :: '"' :: rest => multilineTail '"' true (rest.length + 1) (skipFirstBreak rest)
    | '\'' :: '\'' :: '\'' :: rest =>
      multilineTail '\'' false (rest.length + 1) (skipFirstBreak rest)
    | '"' :: rest => basicTail (rest.length + 1) rest
    | '\'' :: rest => literalTail rest
    | _ => none
  read.map fun (value, rest) => (String.ofList value, rest)

/-! ## Keys -/

/-- Characters of a key without quotes. -/
def isBare (c : Char) : Bool :=
  c.isAlphanum || c == '_' || c == '-'

/-- One part of a key. -/
def simpleKey? : Reader String := fun text =>
  match text with
  | '"' :: rest => (basicTail (rest.length + 1) rest).map fun (key, rest) => (String.ofList key, rest)
  | '\'' :: rest => (literalTail rest).map fun (key, rest) => (String.ofList key, rest)
  | _ =>
    let key := text.takeWhile isBare
    if key.isEmpty then none else some (String.ofList key, text.drop key.length)

/-- The parts of a key, blanks around them dropped, at most `bound` of them. -/
def keyParts? : (bound : Nat) → Reader (List String)
  | 0, _ => none
  | bound + 1, text =>
    match simpleKey? (skipSpaces text) with
    | none => none
    | some (part, rest) =>
      match skipSpaces rest with
      | '.' :: rest => (keyParts? bound rest).map fun (parts, rest) => (part :: parts, rest)
      | rest => some ([part], rest)

/-- The depth to which keys and values may be nested. -/
def depthLimit : Nat := 79

/-- A key with its dots. -/
def key? : Reader (List String) :=
  keyParts? depthLimit

end JestMigration.Toml
