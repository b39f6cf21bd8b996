import ClusterVitals.Text.Alphanumeric
import ClusterVitals.Text.Blank
import ClusterVitals.Text.Digit

/-!
# Patterns

The regular expressions that a log filter compares the values of fields with. Nothing is matched
here: all that matters of a pattern is whether it is one.

Only ASCII has word characters, digits, white space, letters in two cases and edges of words. A
pattern works on the characters of Unicode at first, where none of these exists; a part that works on
bytes instead, after the flag `-u`, may use them and must not reach beyond ASCII in any other way than
by a literal character.

A brace is never closed in a pattern that a filter holds, since a closing one ends the pattern. So
there are no counted repetitions and no names or numbers between braces.
-/

namespace ClusterVitals.LogFilter.Pattern

/-- How the part of a pattern around a place is read. -/
structure Mode where
  /-- Letters stand for both of their cases. -/
  caseless : Bool
  /-- The pattern works on characters, and not on bytes. -/
  unicode : Bool
  /-- White space and comments are passed over. -/
  verbose : Bool
  deriving DecidableEq, Repr

/-- How a pattern begins. -/
def Mode.standard : Mode := ⟨false, true, false⟩

/-- Drops white space and comments, which run from a number sign to the end of the line. -/
def dropSpace : (comment : Bool) → List Char → List Char
  | _, [] => []
  | true, c :: rest => dropSpace (c != '\n') rest
  | false, c :: rest =>
    if Text.isBlank c ∨ c = '#' then dropSpace (c == '#') rest else c :: rest

/-- Drops what a mode passes over. -/
def Mode.skip (mode : Mode) (cs : List Char) : List Char :=
  if mode.verbose then dropSpace false cs else cs

/-! ## Escapes -/

/-- What an escape stands for. -/
inductive Escape where
  /-- The character with a code point. `byte` if it is written by the two digits of a byte. -/
  | character (code : Nat) (byte : Bool)
  /-- The start or the end of the text. -/
  | position
  /-- An edge of a word, or the lack of one. -/
  | wordEdge
  /-- The digits, white space or word characters, or all others. -/
  | kind (negated : Bool)
  deriving DecidableEq, Repr

/-- Reads hexadecimal digits. -/
def hexNumber? (mode : Mode) : (count number : Nat) → List Char → Option (Nat × List Char)
  | 0, number, cs => some (number, cs)
  | count + 1, number, cs =>
    match mode.skip cs with
    | [] => none
    | c :: rest => do hexNumber? mode count (number * 16 + (← Text.digit? c)) rest

/-- Reads a character by the hexadecimal digits of its code point. -/
def hexEscape? (mode : Mode) (count : Nat) (cs : List Char) : Option (Escape × List Char) := do
  let (code, rest) ← hexNumber? mode count 0 cs
  if code.isValidChar then some (.character code (count = 2), rest) else none

/-- A letter that stands for a control character after a backslash, and that character. -/
def control? : Char → Option Char
  | 'a' => some '\x07'
  | 'f' => some '\x0c'
  | 't' => some '\t'
  | 'n' => some '\n'
  | 'r' => some '\r'
  | 'v' => some '\x0b'
  | _ => none

/-- Reads an escape after its backslash. ASCII characters that are neither letters nor digits stand
for themselves. -/
def escape? (mode : Mode) : List Char → Option (Escape × List Char)
  | [] => none
  | c :: rest =>
    if c = 'x' then hexEscape? mode 2 rest
    else if c = 'u' then hexEscape? mode 4 rest
    else if c = 'U' then hexEscape? mode 8 rest
    else if c = 'A' ∨ c = 'z' then some (.position, rest)
    else if c = 'b' ∨ c = 'B' ∨ c = '<' ∨ c = '>' then some (.wordEdge, rest)
    else if c = 'd' ∨ c = 's' ∨ c = 'w' then some (.kind false, rest)
    else if c = 'D' ∨ c = 'S' ∨ c = 'W' then some (.kind true, rest)
    else if c.toNat < 0x80 ∧ ¬c.isAlphanum then some (.character c.toNat false, rest)
    else do return (.character (← control? c).toNat false, rest)

/-- A literal character exists: in both cases only where it works on bytes, and as a byte of its own
only in ASCII. -/
def Mode.hasCharacter (mode : Mode) (code : Nat) (byte : Bool) : Bool :=
  if mode.unicode then !mode.caseless else !byte || code < 0x80

/-- What an escape stands for exists. -/
def Mode.hasEscape (mode : Mode) : Escape → Bool
  | .character code byte => mode.hasCharacter code byte
  | .position => true
  | .wordEdge => !mode.unicode
  | .kind negated => !mode.unicode && !negated

/-! ## Classes -/

/-- The names of classes of ASCII. -/
def classNames : List String :=
  ["alnum", "alpha", "ascii", "blank", "cntrl", "digit", "graph", "lower", "print", "punct", "space",
    "upper", "word", "xdigit"]

/-- Reads a named class after its opening bracket; `true` if it stands for all others. -/
def namedClass? : List Char → Option (Bool × List Char)
  | ':' :: rest =>
    let (negated, rest) :=
      match rest with
      | '^' :: rest => (true, rest)
      | _ => (false, rest)
    match rest.dropWhile (· ≠ ':') with
    | ':' :: ']' :: after =>
      if String.ofList (rest.takeWhile (· ≠ ':')) ∈ classNames then some (negated, after) else none
    | _ => none
  | _ => none

/-- Reads the start of a class after its opening bracket. Hyphens there are literal, and so is a
closing bracket that comes first. -/
def classStart? (mode : Mode) (cs : List Char) : Option (List Char) :=
  let cs := mode.skip cs
  let (negated, cs) :=
    match cs with
    | '^' :: rest => (true, mode.skip rest)
    | _ => (false, cs)
  if mode.unicode ∧ mode.caseless ∨ ¬mode.unicode ∧ negated then none
  else
    match cs with
    | ']' :: rest => some rest
    | _ => some (cs.dropWhile fun c => c = '-' ∨ (mode.verbose ∧ Text.isBlank c))

/-- Reads a member of a class: the code point of a character, or no code point for a kind of
characters. -/
def member? (mode : Mode) : List Char → Option (Option Nat × List Char)
  | [] => none
  | '\\' :: rest => do
    match ← escape? mode rest with
    | (.character code _, rest) => if mode.unicode ∨ code < 0x80 then some (some code, rest) else none
    | (.kind negated, rest) => if mode.hasEscape (.kind negated) then some (none, rest) else none
    | _ => none
  | c :: rest => if mode.unicode ∨ c.toNat < 0x80 then some (some c.toNat, rest) else none

/-- Reads a member of a class or a range between two characters. A hyphen is no sign of a range before
another one or before the end of the class. -/
def range? (mode : Mode) (cs : List Char) : Option (List Char) := do
  let (first, rest) ← member? mode cs
  match mode.skip rest with
  | '-' :: more =>
    match mode.skip more with
    | '-' :: _ | ']' :: _ => some ('-' :: more)
    | more =>
      let (last, rest) ← member? mode more
      if (← first) ≤ (← last) then some rest else none
  | rest => some rest

/-- Reads to the end of the outermost of the open classes. Every step takes a character, so their
number bounds the steps. -/
def classEnd? (mode : Mode) : (steps opened : Nat) → List Char → Option (List Char)
  | 0, _, _ => none
  | steps + 1, opened, cs =>
    match mode.skip cs with
    | [] => none
    | ']' :: rest => if opened ≤ 1 then some rest else classEnd? mode steps (opened - 1) rest
    | '[' :: rest =>
      match namedClass? rest with
      | some (negated, rest) =>
        if negated ∧ ¬mode.unicode then none else classEnd? mode steps opened rest
      | none => do classEnd? mode steps (opened + 1) (← classStart? mode rest)
    -- what two classes have in common, what one has alone, and what just one of two has
    | '&' :: '&' :: rest | '-' :: '-' :: rest | '~' :: '~' :: rest =>
      classEnd? mode steps opened rest
    | cs => do classEnd? mode steps opened (← range? mode cs)

/-- Reads a class after its opening bracket. -/
def class? (mode : Mode) (cs : List Char) : Option (List Char) := do
  let rest ← classStart? mode cs
  classEnd? mode (rest.length + 1) 1 rest

/-! ## Groups -/

/-- How much of a pattern has been read. -/
structure Progress where
  mode : Mode
  /-- The modes to go back to at the ends of the open groups, the innermost first. -/
  opened : List Mode
  /-- The names of groups. -/
  names : List String
  /-- Something stands before the place that may be repeated. -/
  repeatable : Bool
  deriving DecidableEq, Repr

/-- Opens a group. -/
def Progress.opening (p : Progress) : Progress :=
  { p with opened := p.mode :: p.opened, repeatable := false }

/-- A mode after a flag has been switched. -/
def Mode.switch (mode : Mode) (on : Bool) : Char → Mode
  | 'i' => { mode with caseless := on }
  | 'u' => { mode with unicode := on }
  | 'x' => { mode with verbose := on }
  | _ => mode

/-- A mode after flags: those behind a hyphen are switched off. Each may be given once, and something
must stand behind the hyphen. -/
def Mode.withFlags? (mode : Mode) (flags : List Char) : Option Mode :=
  let on := flags.takeWhile (· ≠ '-')
  let off := flags.dropWhile (· ≠ '-')
  if flags.Nodup ∧ flags.all "imsUuRx-".toList.contains ∧ flags.getLast? ≠ some '-' then
    some (off.foldl (·.switch false) (on.foldl (·.switch true) mode))
  else none

/-- A name of a group. -/
def isGroupName : List Char → Bool
  | [] => false
  | first :: rest =>
    (first = '_' || (Text.isAlphanumeric first && !first.isDigit)) &&
      rest.all fun c => c = '_' || c = '.' || c = '[' || c = ']' || Text.isAlphanumeric c

/-- Reads the start of a group after its opening parenthesis, or flags between parentheses. -/
def group? (p : Progress) (cs : List Char) : Option (Progress × List Char) :=
  match p.mode.skip cs with
  | '?' :: 'P' :: '<' :: rest | '?' :: '<' :: rest =>
    let name := rest.takeWhile (· ≠ '>')
    match rest.dropWhile (· ≠ '>') with
    | [] => none
    | _ :: after =>
      if isGroupName name ∧ String.ofList name ∉ p.names then
        some ({ p.opening with names := String.ofList name :: p.names }, after)
      else none
  | '?' :: rest => do
    let flags := rest.takeWhile fun c => c ≠ ':' ∧ c ≠ ')'
    let mode ← p.mode.withFlags? flags
    match rest.dropWhile fun c => c ≠ ':' ∧ c ≠ ')' with
    | [] => none
    | ':' :: after => some ({ p.opening with mode }, after)
    | _ :: after => if flags = [] then none else some ({ p with mode, repeatable := false }, after)
  | rest => some (p.opening, rest)

/-! ## Whole patterns -/

/-- Goes on after something that may be repeated, if that exists. -/
def Progress.after? (p : Progress) (present : Bool) (rest : List Char) :
    Option (Progress × List Char) :=
  if present then some ({ p with repeatable := true }, rest) else none

/-- Reads one part of a pattern, given its first character and what follows that. -/
def part? (p : Progress) (c : Char) (rest : List Char) : Option (Progress × List Char) :=
  match c with
  | '(' => group? p rest
  | ')' =>
    match p.opened with
    | [] => none
    | mode :: opened => some ({ p with mode, opened, repeatable := true }, rest)
  | '|' => some ({ p with repeatable := false }, rest)
  | '[' => do p.after? true (← class? p.mode rest)
  | '?' | '*' | '+' =>
    match rest with
    | '?' :: rest => p.after? p.repeatable rest
    | _ => p.after? p.repeatable rest
  -- a repetition with a count, which cannot be closed
  | '\x7b' => none
  | '\\' => do
    let (escape, rest) ← escape? p.mode rest
    p.after? (p.mode.hasEscape escape) rest
  | '.' => p.after? p.mode.unicode rest
  | '^' | '$' => p.after? true rest
  | _ => p.after? (p.mode.hasCharacter c.toNat false) rest

/-- Reads to the end of a pattern, where every group must be closed. Every step takes a character, so
their number bounds the steps. -/
def accepts (p : Progress) : (steps : Nat) → List Char → Bool
  | 0, _ => false
  | steps + 1, cs =>
    match p.mode.skip cs with
    | [] => p.opened.isEmpty
    | c :: rest =>
      match part? p c rest with
      | some (p, rest) => accepts p steps rest
      | none => false

/-- A text is a pattern. -/
def isPattern (text : String) : Bool :=
  accepts ⟨.standard, [], [], false⟩ (text.length + 1) text.toList

end ClusterVitals.LogFilter.Pattern
