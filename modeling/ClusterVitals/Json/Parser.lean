import ClusterVitals.Json.Basic
import ClusterVitals.Text.Digit

/-!
# Reading JSON

A text is read from left to right by recursive descent. Each part takes characters off the front of
the text and hands on the rest. The number of characters bounds the depth of the recursion.
-/

namespace ClusterVitals.Json

open Text (digit? valueOf)

/-- The white space of JSON. -/
def isSpace (c : Char) : Bool :=
  c = ' ' || c = '\n' || c = '\t' || c = '\r'

/-- Drops white space. -/
def skipSpace (cs : List Char) : List Char :=
  cs.dropWhile isSpace

/-- The value of four hexadecimal digits. -/
def hexUnit? (a b c d : Char) : Option Nat := do
  return (((← digit? a) * 16 + (← digit? b)) * 16 + (← digit? c)) * 16 + (← digit? d)

/-- The character that a short escape stands for. -/
def shortEscape? : Char → Option Char
  | '"' => some '"'
  | '\\' => some '\\'
  | '/' => some '/'
  | 'b' => some '\x08'
  | 'f' => some '\x0c'
  | 'n' => some '\n'
  | 'r' => some '\r'
  | 't' => some '\t'
  | _ => none

/-- The UTF-16 units that a piece of a string stands for. -/
def unitsOfChar (c : Char) : List Nat :=
  let n := c.toNat
  if n < 0x10000 then [n] else [0xD800 + (n - 0x10000) / 0x400, 0xDC00 + (n - 0x10000) % 0x400]

/-- Reads a string after its opening quote, as UTF-16 units. -/
def stringUnits : List Char → Option (List Nat × List Char)
  | [] => none
  | '"' :: rest => some ([], rest)
  | '\\' :: 'u' :: a :: b :: c :: d :: rest => do
    let unit ← hexUnit? a b c d
    let (units, rest) ← stringUnits rest
    return (unit :: units, rest)
  | '\\' :: c :: rest => do
    let c ← shortEscape? c
    let (units, rest) ← stringUnits rest
    return (unitsOfChar c ++ units, rest)
  | c :: rest =>
    if c.toNat < 0x20 ∨ c = '\\' then none
    else do
      let (units, rest) ← stringUnits rest
      return (unitsOfChar c ++ units, rest)

/-- The characters of UTF-16 units, unless half of a surrogate pair stands alone. -/
def charsOfUnits : List Nat → Option (List Char)
  | [] => some []
  | [unit] => if 0xD800 ≤ unit ∧ unit < 0xE000 then none else some [Char.ofNat unit]
  | high :: low :: rest =>
    if 0xD800 ≤ high ∧ high < 0xDC00 then
      if 0xDC00 ≤ low ∧ low < 0xE000 then
        (charsOfUnits rest).map
          (Char.ofNat (0x10000 + (high - 0xD800) * 0x400 + (low - 0xDC00)) :: ·)
      else none
    else if 0xDC00 ≤ high ∧ high < 0xE000 then none
    else (charsOfUnits (low :: rest)).map (Char.ofNat high :: ·)

/-- Reads a string after its opening quote. -/
def parseString (cs : List Char) : Option (Option String × List Char) := do
  let (units, rest) ← stringUnits cs
  return ((charsOfUnits units).map String.ofList, rest)

/-- Takes decimal digits off the front, of which there must be at least one. -/
def takeDigits (cs : List Char) : Option (List Char × List Char) :=
  let digits := cs.takeWhile Char.isDigit
  if digits.isEmpty then none else some (digits, cs.dropWhile Char.isDigit)

/-- Reads the whole part of a number, which has no zeros in front. -/
def takeWhole (cs : List Char) : Option (List Char × List Char) := do
  let (digits, rest) ← takeDigits cs
  if digits.length ≠ 1 ∧ digits.head? = some '0' then none else return (digits, rest)

/-- Reads decimal places, which may be absent. -/
def takePlaces : List Char → Option (List Char × List Char)
  | '.' :: rest => takeDigits rest
  | cs => some ([], cs)

/-- Reads digits of an exponent after its sign. -/
def takeExponentDigits (negative : Bool) (cs : List Char) : Option (Int × List Char) := do
  let (digits, rest) ← takeDigits cs
  let n := valueOf 10 digits
  return (if negative then -(n : Int) else n, rest)

/-- Reads an exponent, which may be absent. -/
def takeExponent : List Char → Option (Int × List Char)
  | c :: rest =>
    if c = 'e' ∨ c = 'E' then
      match rest with
      | '+' :: rest => takeExponentDigits false rest
      | '-' :: rest => takeExponentDigits true rest
      | _ => takeExponentDigits false rest
    else some (0, c :: rest)
  | [] => some (0, [])

/-- Reads a number after its sign. -/
def parseNumber (negative : Bool) (cs : List Char) : Option (Json × List Char) := do
  let (whole, rest) ← takeWhole cs
  let (places, rest) ← takePlaces rest
  let (exponent, rest) ← takeExponent rest
  return (.number negative ⟨valueOf 10 (whole ++ places), exponent - places.length⟩, rest)

mutual

/-- Reads a value, after white space. -/
def parseValue : (depth : Nat) → List Char → Option (Json × List Char)
  | 0, _ => none
  | depth + 1, cs =>
    match skipSpace cs with
    | 'n' :: 'u' :: 'l' :: 'l' :: rest => some (.null, rest)
    | 't' :: 'r' :: 'u' :: 'e' :: rest => some (.bool true, rest)
    | 'f' :: 'a' :: 'l' :: 's' :: 'e' :: rest => some (.bool false, rest)
    | '"' :: rest => do
      let (text, rest) ← parseString rest
      return (.string text, rest)
    | '[' :: rest =>
      match skipSpace rest with
      | ']' :: rest => some (.array [], rest)
      | rest => do
        let (elements, rest) ← parseElements depth rest
        return (.array elements, rest)
    | '\x7b' :: rest =>
      match skipSpace rest with
      | '\x7d' :: rest => some (.object [], rest)
      | rest => do
        let (members, rest) ← parseMembers depth rest
        return (.object members, rest)
    | '-' :: rest => parseNumber true rest
    | rest => parseNumber false rest

/-- Reads the elements of an array up to its closing bracket. -/
def parseElements : (depth : Nat) → List Char → Option (List Json × List Char)
  | 0, _ => none
  | depth + 1, cs => do
    let (element, rest) ← parseValue depth cs
    match skipSpace rest with
    | ']' :: rest => return ([element], rest)
    | ',' :: rest =>
      let (elements, rest) ← parseElements depth rest
      return (element :: elements, rest)
    | _ => none

/-- Reads the members of an object up to its closing brace. -/
def parseMembers : (depth : Nat) → List Char → Option (List (Option String × Json) × List Char)
  | 0, _ => none
  | depth + 1, cs => do
    match skipSpace cs with
    | '"' :: rest =>
      let (name, rest) ← parseString rest
      match skipSpace rest with
      | ':' :: rest =>
        let (value, rest) ← parseValue depth rest
        match skipSpace rest with
        | '\x7d' :: rest => return ([(name, value)], rest)
        | ',' :: rest =>
          let (members, rest) ← parseMembers depth rest
          return ((name, value) :: members, rest)
        | _ => none
      | _ => none
    | _ => none

end

/-- Reads a text that holds one value and nothing else. -/
def parse? (text : String) : Option Json :=
  let cs := text.toList
  match parseValue (2 * cs.length + 2) cs with
  | some (value, rest) => if (skipSpace rest).isEmpty then some value else none
  | none => none

end ClusterVitals.Json
