import ClusterVitals.Binary64.Decimal

/-!
# Writing TOML

The forms in which texts and numbers are written. A text takes the first form that shows it as it is:
double quotes, single quotes, three double quotes, three single quotes; a text that none of them can
show stands in double quotes with escapes.
-/

namespace ClusterVitals.Toml

/-- A control character that must be escaped wherever it stands. A tab need not be, and a line feed
has its own rules. -/
def needsEscape (c : Char) : Bool :=
  (c.toNat < 0x20 && c != '\t' && c != '\n') || c.toNat == 0x7F

/-- The length of the longest run of a character. -/
def longestRun (c : Char) (cs : List Char) : Nat :=
  let step := fun (best, run) d => if d = c then (max best (run + 1), run + 1) else (best, 0)
  (cs.foldl step (0, 0)).1

/-- The escape of a character that basic texts do not show. -/
def escape? (c : Char) : Option String :=
  match c with
  | '\x08' => some "\\b"
  | '\t' => some "\\t"
  | '\x0C' => some "\\f"
  | '\r' => some "\\r"
  | '\\' => some "\\\\"
  | _ =>
    if needsEscape c then
      let digits := (Nat.toDigits 16 c.toNat).map Char.toUpper
      some ("\\u" ++ String.ofList (List.replicate (4 - digits.length) '0' ++ digits))
    else none

/-- The characters of a text between double quotes. After `quotes` double quotes in a row, at most
`limit` of which may stand as they are, the next one is escaped; line feeds stand as they are between
three quotes only. -/
def basicBody (limit : Nat) (lines : Bool) : (quotes : Nat) → List Char → String
  | _, [] => ""
  | quotes, c :: rest =>
    if c = '"' then
      if quotes < limit then "\"" ++ basicBody limit lines (quotes + 1) rest
      else "\\\"" ++ basicBody limit lines 0 rest
    else
      let shown :=
        match escape? c with
        | some e => e
        | none => if c = '\n' ∧ ¬lines then "\\n" else c.toString
      shown ++ basicBody limit lines 0 rest

/-- A line feed after the opening quotes of a text with lines. -/
def openingLine (cs : List Char) : String := if cs.contains '\n' then "\n" else ""

/-- A text between double quotes. -/
def basicText (cs : List Char) : String := "\"" ++ basicBody 0 false 0 cs ++ "\""

/-- A text between three double quotes. -/
def basicLines (cs : List Char) : String :=
  "\"\"\"" ++ openingLine cs ++ basicBody 2 true 0 cs ++ "\"\"\""

/-- A text between single quotes. -/
def literalText (cs : List Char) : String := "'" ++ String.ofList cs ++ "'"

/-- A text between three single quotes. -/
def literalLines (cs : List Char) : String :=
  "'''" ++ openingLine cs ++ String.ofList cs ++ "'''"

/-- A text in the first form that shows it. -/
def renderText (text : String) : String :=
  let cs := text.toList
  let controls := cs.any needsEscape
  let hasLines := cs.contains '\n'
  let backslash := cs.contains '\\'
  let doubleRun := longestRun '"' cs
  let singleRun := longestRun '\'' cs
  if ¬controls ∧ ¬backslash ∧ doubleRun = 0 ∧ ¬hasLines then basicText cs
  else if ¬controls ∧ singleRun = 0 ∧ ¬hasLines then literalText cs
  else if ¬controls ∧ ¬backslash ∧ doubleRun ≤ 2 then basicLines cs
  else if ¬controls ∧ singleRun ≤ 2 then literalLines cs
  else if hasLines then basicLines cs
  else basicText cs

/-- A floating-point number, always with a point and never with an exponent. -/
def renderFloat (x : Binary64) : String :=
  match x with
  | .nan => "nan"
  | _ => x.pointText

end ClusterVitals.Toml
