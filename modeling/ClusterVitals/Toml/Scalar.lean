import ClusterVitals.Binary64.Decimal
import ClusterVitals.Text.Digit
import ClusterVitals.Toml.Basic

/-!
# Reading TOML scalars

Each reader takes its characters off the front of the text and hands on the rest, or gives `none`
when the text does not begin with what it reads. What may follow a value is checked by the caller.
-/

namespace ClusterVitals.Toml

open Text (isDigitOf valueOf)

/-- A reader of one part of the text. -/
abbrev Reader (α : Type) := List Char → Option (α × List Char)

/-- A space or a tab. -/
def isSpace (c : Char) : Bool := c = ' ' || c = '\t'

/-- Drops spaces and tabs. -/
def skipSpace (cs : List Char) : List Char := cs.dropWhile isSpace

/-- The characters that may stand in comments and, quotes and backslashes apart, in strings: all but
control characters, of which only the tab is allowed. -/
def isVisible (c : Char) : Bool :=
  let n := c.toNat
  n = 0x09 || (0x20 ≤ n && n ≤ 0x7E) || 0x80 ≤ n

/-- Reads the end of a line, with or without a carriage return. -/
def takeNewline : Reader Unit
  | '\n' :: rest => some ((), rest)
  | '\r' :: '\n' :: rest => some ((), rest)
  | _ => none

/-- Drops a comment up to the end of its line. -/
def skipComment : List Char → List Char
  | '#' :: rest => rest.dropWhile isVisible
  | cs => cs

/-! ## Numbers -/

/-- Reads the digits after a first one. An underscore may stand between two digits. -/
def takeMoreDigits (base : Nat) : Reader (List Char)
  | [] => some ([], [])
  | c :: rest =>
    if isDigitOf base c then do
      let (digits, rest) ← takeMoreDigits base rest
      return (c :: digits, rest)
    else if c = '_' then
      match rest with
      | d :: rest =>
        if isDigitOf base d then do
          let (digits, rest) ← takeMoreDigits base rest
          return (d :: digits, rest)
        else none
      | [] => none
    else some ([], c :: rest)

/-- Reads digits, of which there is at least one. -/
def takeDigits (base : Nat) : Reader (List Char)
  | c :: rest =>
    if isDigitOf base c then do
      let (digits, rest) ← takeMoreDigits base rest
      return (c :: digits, rest)
    else none
  | [] => none

/-- Reads a sign, which may be absent; `true` for a minus. -/
def takeSign : List Char → Bool × List Char
  | '+' :: rest => (false, rest)
  | '-' :: rest => (true, rest)
  | cs => (false, cs)

/-- Reads decimal digits without zeros in front. -/
def takeWhole : Reader (List Char)
  | '0' :: rest => some (['0'], rest)
  | cs => takeDigits 10 cs

/-- The integer of a sign and digits, if it fits into sixty-four bits. -/
def integer? (negative : Bool) (magnitude : Nat) : Option Int :=
  if negative then
    if magnitude ≤ Nat.pow 2 63 then some (-(magnitude : Int)) else none
  else if magnitude < Nat.pow 2 63 then some magnitude
  else none

/-- Reads digits of a base after its mark. -/
def takeBased (base : Nat) : Reader Toml := fun cs => do
  let (digits, rest) ← takeDigits base cs
  return (.integer (← integer? false (valueOf base digits)), rest)

/-- Reads an integer. -/
def takeInteger : Reader Toml
  | '0' :: 'x' :: rest => takeBased 16 rest
  | '0' :: 'o' :: rest => takeBased 8 rest
  | '0' :: 'b' :: rest => takeBased 2 rest
  | cs => do
    let (negative, rest) := takeSign cs
    let (digits, rest) ← takeWhole rest
    return (.integer (← integer? negative (valueOf 10 digits)), rest)

/-- Reads an exponent. -/
def takeExponent : Reader Int
  | c :: rest =>
    if c = 'e' ∨ c = 'E' then do
      let (negative, rest) := takeSign rest
      let (digits, rest) ← takeDigits 10 rest
      let n := valueOf 10 digits
      return (if negative then -(n : Int) else n, rest)
    else none
  | [] => none

/-- The number of a sign and a decimal. A positive number must not be out of range. -/
def float? (negative : Bool) (d : Binary64.Decimal) : Option Binary64 :=
  let x := Binary64.ofDecimal negative d
  if x = Binary64.infinity false then none else some x

/-- Reads a number with decimal places, an exponent or both. -/
def takeFraction : Reader Toml := fun cs => do
  let (negative, rest) := takeSign cs
  let (whole, rest) ← takeWhole rest
  match rest with
  | '.' :: rest =>
    let (places, rest) ← takeDigits 10 rest
    let digits := valueOf 10 (whole ++ places)
    match rest with
    | c :: _ =>
      if c = 'e' ∨ c = 'E' then
        let (exponent, rest) ← takeExponent rest
        return (.float (← float? negative ⟨digits, exponent - places.length⟩), rest)
      else return (.float (← float? negative ⟨digits, -(places.length : Int)⟩), rest)
    | [] => return (.float (← float? negative ⟨digits, -(places.length : Int)⟩), rest)
  | _ =>
    let (exponent, rest) ← takeExponent rest
    return (.float (← float? negative ⟨valueOf 10 whole, exponent⟩), rest)

/-- Reads an infinity or a NaN. -/
def takeSpecial : Reader Toml := fun cs =>
  let (negative, rest) := takeSign cs
  match rest with
  | 'i' :: 'n' :: 'f' :: rest => some (.float (Binary64.infinity negative), rest)
  | 'n' :: 'a' :: 'n' :: rest => some (.float .nan, rest)
  | _ => none

/-! ## Dates and times -/

/-- Reads a number of exactly two digits, at most `limit`. -/
def takePair (limit : Nat) : Reader Nat
  | a :: b :: rest =>
    if isDigitOf 10 a ∧ isDigitOf 10 b ∧ valueOf 10 [a, b] ≤ limit then
      some (valueOf 10 [a, b], rest)
    else none
  | _ => none

/-- Reads a given character. -/
def takeChar (c : Char) : Reader Unit
  | d :: rest => if d = c then some ((), rest) else none
  | [] => none

/-- The number of days of a month. -/
def daysOfMonth (year month : Nat) : Nat :=
  if month = 2 then
    if year % 4 = 0 ∧ (year % 100 ≠ 0 ∨ year % 400 = 0) then 29 else 28
  else if month ∈ [4, 6, 9, 11] then 30
  else 31

/-- Reads a date that exists. -/
def takeDate : Reader Unit := fun cs => do
  let (century, rest) ← takePair 99 cs
  let (year, rest) ← takePair 99 rest
  let (_, rest) ← takeChar '-' rest
  let (month, rest) ← takePair 12 rest
  let (_, rest) ← takeChar '-' rest
  let (day, rest) ← takePair 31 rest
  if 1 ≤ month ∧ 1 ≤ day ∧ day ≤ daysOfMonth (century * 100 + year) month then some ((), rest)
  else none

/-- Reads a time of day. A minute may have a sixty-first second. -/
def takeTime : Reader Unit := fun cs => do
  let (_, rest) ← takePair 23 cs
  let (_, rest) ← takeChar ':' rest
  let (_, rest) ← takePair 59 rest
  let (_, rest) ← takeChar ':' rest
  let (_, rest) ← takePair 60 rest
  match rest with
  | '.' :: rest =>
    let places := rest.takeWhile (isDigitOf 10)
    if places.isEmpty then none else some ((), rest.dropWhile (isDigitOf 10))
  | _ => some ((), rest)

/-- Reads an offset from UTC, which may be absent. -/
def takeOffset : Reader Unit
  | c :: rest =>
    if c = 'Z' ∨ c = 'z' then some ((), rest)
    else if c = '+' ∨ c = '-' then do
      let (_, rest) ← takePair 23 rest
      let (_, rest) ← takeChar ':' rest
      let (_, rest) ← takePair 59 rest
      some ((), rest)
    else some ((), c :: rest)
  | [] => some ((), [])

/-- Reads a date, a time of day, or both. -/
def takeDatetime : Reader Toml := fun cs =>
  match takeDate cs with
  | some (_, rest) =>
    match rest with
    | c :: more =>
      if c = 'T' ∨ c = 't' ∨ c = ' ' then
        match takeTime more with
        | some (_, more) => do
          let (_, more) ← takeOffset more
          some (.datetime, more)
        | none => some (.datetime, rest)
      else some (.datetime, rest)
    | [] => some (.datetime, rest)
  | none => do
    let (_, rest) ← takeTime cs
    some (.datetime, rest)

/-- Reads a number, a date or a time: the first of these that the text begins with. -/
def takeNumeric : Reader Toml := fun cs =>
  takeDatetime cs <|> takeFraction cs <|> takeSpecial cs <|> takeInteger cs

/-! ## Strings -/

/-- The character of an escape that has a single letter. -/
def shortEscape? : Char → Option Char
  | 'b' => some '\x08'
  | 't' => some '\t'
  | 'n' => some '\n'
  | 'f' => some '\x0c'
  | 'r' => some '\r'
  | '"' => some '"'
  | '\\' => some '\\'
  | _ => none

/-- The character of a code point in hexadecimal digits. -/
def hexChar? (digits : List Char) : Option Char :=
  let n := valueOf 16 digits
  if digits.all (isDigitOf 16) then
    if h : n.isValidChar then some (Char.ofNatAux n h) else none
  else none

/-- Reads an escape after its backslash. -/
def takeEscape : Reader Char
  | 'u' :: a :: b :: c :: d :: rest => do return (← hexChar? [a, b, c, d], rest)
  | 'U' :: a :: b :: c :: d :: e :: f :: g :: h :: rest => do
    return (← hexChar? [a, b, c, d, e, f, g, h], rest)
  | c :: rest => do return (← shortEscape? c, rest)
  | [] => none

/-- Drops spaces and line ends. -/
def skipSpaceAndLines : List Char → List Char
  | '\r' :: '\n' :: rest => skipSpaceAndLines rest
  | c :: rest => if c = '\n' ∨ isSpace c then skipSpaceAndLines rest else c :: rest
  | [] => []

/-- Reads a string in double quotes after the first of them. Each character takes characters of the
text, so their number bounds the steps. -/
def takeBasic : (steps : Nat) → Reader (List Char)
  | 0, _ => none
  | steps + 1, cs =>
    match cs with
    | '"' :: rest => some ([], rest)
    | '\\' :: rest => do
      let (c, rest) ← takeEscape rest
      let (text, rest) ← takeBasic steps rest
      return (c :: text, rest)
    | c :: rest =>
      if isVisible c then do
        let (text, rest) ← takeBasic steps rest
        return (c :: text, rest)
      else none
    | [] => none

/-- Reads a string in single quotes after the first of them. -/
def takeLiteral : Reader (List Char)
  | '\'' :: rest => some ([], rest)
  | c :: rest =>
    if isVisible c then do
      let (text, rest) ← takeLiteral rest
      return (c :: text, rest)
    else none
  | [] => none

/-- The text of quotes that close a string of several lines: three close it, and up to two before
those belong to it. -/
def closingQuotes (quote : Char) (cs : List Char) : Option (List Char × List Char) :=
  let quotes := (cs.takeWhile (· = quote)).length
  let inside := min (quotes - 3) 2
  if 3 ≤ quotes then some (List.replicate inside quote, cs.drop (inside + 3)) else none

/-- Drops a line end at the beginning. -/
def dropFirstNewline (cs : List Char) : List Char :=
  match takeNewline cs with
  | some (_, rest) => rest
  | none => cs

/-- Reads a string of several lines in double quotes, after its opening quotes. A backslash at the
end of a line joins it to the next character that is no white space. -/
def takeBasicLines : (steps : Nat) → Reader (List Char)
  | 0, _ => none
  | steps + 1, cs =>
    match closingQuotes '"' cs with
    | some closed => some closed
    | none =>
      match cs with
      | '\\' :: rest =>
        match takeNewline (skipSpace rest) with
        | some (_, rest) => takeBasicLines steps (skipSpaceAndLines rest)
        | none => do
          let (c, rest) ← takeEscape rest
          let (text, rest) ← takeBasicLines steps rest
          return (c :: text, rest)
      | '\r' :: '\n' :: rest => do
        let (text, rest) ← takeBasicLines steps rest
        return ('\n' :: text, rest)
      | c :: rest =>
        if c = '\n' ∨ isVisible c then do
          let (text, rest) ← takeBasicLines steps rest
          return (c :: text, rest)
        else none
      | [] => none

/-- Reads a string of several lines in single quotes, after its opening quotes. -/
def takeLiteralLines : (steps : Nat) → Reader (List Char)
  | 0, _ => none
  | steps + 1, cs =>
    match closingQuotes '\'' cs with
    | some closed => some closed
    | none =>
      match cs with
      | '\r' :: '\n' :: rest => do
        let (text, rest) ← takeLiteralLines steps rest
        return ('\n' :: text, rest)
      | c :: rest =>
        if c = '\n' ∨ isVisible c then do
          let (text, rest) ← takeLiteralLines steps rest
          return (c :: text, rest)
        else none
      | [] => none

/-- Reads a string on one line. -/
def takeLineString : Reader String := fun cs =>
  match cs with
  | '"' :: rest => do
    let (text, rest) ← takeBasic (rest.length + 1) rest
    return (String.ofList text, rest)
  | '\'' :: rest => do
    let (text, rest) ← takeLiteral rest
    return (String.ofList text, rest)
  | _ => none

/-- Reads a string of any of the four forms. -/
def takeString : Reader String := fun cs =>
  match cs with
  | '"' :: '"' :: '"' :: rest => do
    let (text, rest) ← takeBasicLines (rest.length + 1) (dropFirstNewline rest)
    return (String.ofList text, rest)
  | '\'' :: '\'' :: '\'' :: rest => do
    let (text, rest) ← takeLiteralLines (rest.length + 1) (dropFirstNewline rest)
    return (String.ofList text, rest)
  | _ => takeLineString cs

end ClusterVitals.Toml
