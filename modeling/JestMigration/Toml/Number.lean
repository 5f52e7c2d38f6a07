/-
# `Toml.Number` — numbers and dates of TOML

Digits may be grouped by underscores that stand between two digits.  Decimal
numbers have no leading zero; integers fit into 64 bits with their sign.  Of a
date or time only its validity matters here.
-/
import JestMigration.Decimal.Literal
import JestMigration.Options
import JestMigration.Toml.Reader

namespace JestMigration.Toml

/-! ## Digits -/

/-- Digits that go on, with underscores between them dropped. -/
def moreDigits (isDigit : Char → Bool) : List Char → List Char × List Char
  | [] => ([], [])
  | [c] => if isDigit c then ([c], []) else ([], [c])
  | c :: next :: rest =>
    if isDigit c then
      let (digits, rest) := moreDigits isDigit (next :: rest)
      (c :: digits, rest)
    else if c = '_' ∧ isDigit next then
      moreDigits isDigit (next :: rest)
    else
      ([], c :: next :: rest)

/-- One digit or more. -/
def digits? (isDigit : Char → Bool) : Reader (List Char)
  | c :: rest => if isDigit c then some (moreDigits isDigit (c :: rest)) else none
  | [] => none

/-- The number that digits stand for in a base. -/
def valueOf (base : Nat) (digits : List Char) : Nat :=
  digits.foldl (fun sum c => base * sum + (hexValue? c).getD 0) 0

/-- A sign: is it a minus? -/
def sign : List Char → Bool × List Char
  | '-' :: rest => (true, rest)
  | '+' :: rest => (false, rest)
  | text => (false, text)

/-- The digits of a decimal number: a zero alone, or any that do not begin with one. -/
def decimalDigits? : Reader (List Char)
  | '0' :: rest => some (['0'], rest)
  | text => digits? Char.isDigit text

/-! ## Integers -/

/-- A number as an integer of 64 bits. -/
def fit? (negative : Bool) (magnitude : Nat) : Option Int :=
  if negative then
    if magnitude ≤ Nat.pow 2 63 then some (-(magnitude : Int)) else none
  else
    if magnitude < Nat.pow 2 63 then some magnitude else none

/-- An integer in a given base, after what announces the base. -/
def based? (base : Nat) (isDigit : Char → Bool) : Reader Setting := fun text =>
  match digits? isDigit text with
  | some (digits, rest) =>
    (fit? false (valueOf base digits)).map fun value => (.integer value, rest)
  | none => none

/-- An integer. -/
def integer? : Reader Setting
  | '0' :: 'x' :: rest => based? 16 (fun c => (hexValue? c).isSome) rest
  | '0' :: 'o' :: rest => based? 8 (fun c => decide ('0' ≤ c) && decide (c ≤ '7')) rest
  | '0' :: 'b' :: rest => based? 2 (fun c => c == '0' || c == '1') rest
  | text =>
    let (negative, text) := sign text
    match decimalDigits? text with
    | some (digits, rest) =>
      (fit? negative (valueOf 10 digits)).map fun value => (.integer value, rest)
    | none => none

/-! ## Numbers with a fraction -/

/-- An exponent with its mark. -/
def exponent? : Reader Int
  | c :: rest =>
    if c = 'e' ∨ c = 'E' then
      let (negative, rest) := sign rest
      (digits? Char.isDigit rest).map fun (digits, rest) =>
        let magnitude : Int := valueOf 10 digits
        (if negative then -magnitude else magnitude, rest)
    else
      none
  | [] => none

/-- A fraction with its point. -/
def fraction? : Reader (List Char)
  | '.' :: rest => digits? Char.isDigit rest
  | _ => none

/-- A number with a fraction, an exponent or both.  One past the largest double is refused. -/
def real? : Reader Setting := fun text =>
  let (negative, text) := sign text
  match decimalDigits? text with
  | none => none
  | some (whole, rest) =>
    let literal (fraction : List Char) (exponent : Int) : Decimal.Literal :=
      ⟨negative, valueOf 10 (whole ++ fraction), exponent - fraction.length⟩
    let finish (literal : Decimal.Literal) (rest : List Char) : Option (Setting × List Char) :=
      if literal.round.isInfinite && !negative then none
      else some (.real (literal.round.shown .writtenOut), rest)
    match fraction? rest with
    | some (fraction, rest) =>
      match exponent? rest with
      | some (exponent, rest) => finish (literal fraction exponent) rest
      | none => finish (literal fraction 0) rest
    | none =>
      match exponent? rest with
      | some (exponent, rest) => finish (literal [] exponent) rest
      | none => none

/-- Infinity and the value that is not a number. -/
def special? : Reader Setting := fun text =>
  match sign text with
  | (negative, 'i' :: 'n' :: 'f' :: rest) => some (.real (if negative then "-inf" else "inf"), rest)
  | (_, 'n' :: 'a' :: 'n' :: rest) => some (.real "NaN", rest)
  | _ => none

/-! ## Dates and times -/

/-- A number of exactly `count` digits. -/
def fixed? (count : Nat) : Reader Nat := fun text =>
  let digits := text.take count
  if digits.length = count ∧ digits.all Char.isDigit then
    some (valueOf 10 digits, text.drop count)
  else
    none

/-- A number of exactly `count` digits after a given character. -/
def fixedAfter? (mark : Char) (count : Nat) : Reader Nat
  | c :: rest => if c = mark then fixed? count rest else none
  | [] => none

/-- The number of days of a month. -/
def daysIn (year month : Nat) : Nat :=
  if month = 2 then
    if year % 4 = 0 ∧ (year % 100 ≠ 0 ∨ year % 400 = 0) then 29 else 28
  else if month = 4 ∨ month = 6 ∨ month = 9 ∨ month = 11 then 30
  else 31

/-- Drops a date. -/
def date? (text : List Char) : Option (List Char) := do
  let (year, rest) ← fixed? 4 text
  let (month, rest) ← fixedAfter? '-' 2 rest
  let (day, rest) ← fixedAfter? '-' 2 rest
  if 1 ≤ month ∧ month ≤ 12 ∧ 1 ≤ day ∧ day ≤ daysIn year month then some rest else none

/-- Drops the fraction of a second. -/
def skipSecondFraction : List Char → List Char
  | '.' :: c :: rest => if c.isDigit then rest.dropWhile Char.isDigit else '.' :: c :: rest
  | text => text

/-- Drops a time of day. -/
def time? (text : List Char) : Option (List Char) := do
  let (hour, rest) ← fixed? 2 text
  let (minute, rest) ← fixedAfter? ':' 2 rest
  let (second, rest) ← fixedAfter? ':' 2 rest
  if hour ≤ 23 ∧ minute ≤ 59 ∧ second ≤ 60 then some (skipSecondFraction rest) else none

/-- Drops an offset from universal time, if there is one. -/
def skipOffset : List Char → List Char
  | [] => []
  | c :: rest =>
    if c = 'Z' ∨ c = 'z' then rest
    else if c = '+' ∨ c = '-' then
      match fixed? 2 rest with
      | some (hour, more) =>
        match fixedAfter? ':' 2 more with
        | some (minute, after) => if hour ≤ 23 ∧ minute ≤ 59 then after else c :: rest
        | none => c :: rest
      | none => c :: rest
    else c :: rest

/-- Drops the time that may follow a date. -/
def skipTimeOfDate : List Char → List Char
  | [] => []
  | c :: rest =>
    if c = 'T' ∨ c = 't' ∨ c = ' ' then
      match time? rest with
      | some after => skipOffset after
      | none => c :: rest
    else c :: rest

/-- A date, a time, or both.  As a setting it is a table. -/
def dateTime? : Reader Setting := fun text =>
  match date? text with
  | some rest => some (.table, skipTimeOfDate rest)
  | none => (time? text).map fun rest => (.table, rest)

/-- A number or a date. -/
def number? : Reader Setting := fun text =>
  match dateTime? text with
  | some read => some read
  | none =>
    match special? text with
    | some read => some read
    | none =>
      match real? text with
      | some read => some read
      | none => integer? text

end JestMigration.Toml
