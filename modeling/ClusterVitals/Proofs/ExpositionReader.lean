import ClusterVitals.Binary64.Text
import ClusterVitals.Config.Validity
import ClusterVitals.Metrics.Exposition
import ClusterVitals.Proofs.ShortestDecimal

/-!
# Reading expositions

The grammar of the text in which gauges are exposed, as a reader. A text is a sequence of lines,
each of which ends with a newline. A line is a `HELP` line, a `TYPE` line, or a sample: a metric name,
its labels between braces, and a number. Parts of a line are separated by one space. A family is its
optional `HELP` line, its `TYPE` line, and the samples under its name. Every family stands in the
text once.

## Shape of the reader

`lines?` cuts the text, `line?` reads one line, and `collect` gathers the lines of the families from
the last one to the first. In help texts and values of labels a backslash begins an escape; what no
escape stands for is refused.
-/

namespace ClusterVitals.Exposition

/-! ## Names -/

/-- A character that a metric name may go on with. -/
def isNameChar (c : Char) : Bool := canContinueName c || c == ':'

/-- A metric name: ASCII letters, digits, underscores and colons, not beginning with a digit. -/
def isIdentifier : List Char → Bool
  | [] => false
  | c :: rest => (canBeginName c || c == ':') && rest.all isNameChar

/-- The metric name at the front, and what follows it. -/
def name? (cs : List Char) : Option (String × List Char) := do
  let name := cs.takeWhile isNameChar
  guard (isIdentifier name)
  return (String.ofList name, cs.dropWhile isNameChar)

/-! ## Lines -/

/-- What a line says. -/
inductive Line where
  | help (name text : String)
  | type (name : String)
  | sample (name : String) (sample : Sample)
  deriving DecidableEq, Repr

/-- The lines of a text, without the newlines that end them. -/
def lines? : List Char → Option (List (List Char))
  | [] => some []
  | '\n' :: rest => (lines? rest).map ([] :: ·)
  | c :: rest =>
    match lines? rest with
    | some (line :: more) => some ((c :: line) :: more)
    | _ => none

/-- The characters that stand in a help text. -/
def helpText? : List Char → Option (List Char)
  | [] => some []
  | '\\' :: '\\' :: rest => (helpText? rest).map ('\\' :: ·)
  | '\\' :: 'n' :: rest => (helpText? rest).map ('\n' :: ·)
  | '\\' :: _ => none
  | c :: rest => (helpText? rest).map (c :: ·)

/-- Where the reader of labels is: in a name, or in the value of a name. -/
inductive Place where
  | name (name : List Char)
  | value (name value : List Char)

/-- The labels up to the closing brace, and what follows it. -/
def labels? : Place → List Char → Option (List (String × String) × List Char)
  | .name name, '=' :: '"' :: rest => labels? (.value name []) rest
  | .name name, c :: rest => if canContinueName c then labels? (.name (name ++ [c])) rest else none
  | .value name value, '\\' :: '\\' :: rest => labels? (.value name (value ++ ['\\'])) rest
  | .value name value, '\\' :: '"' :: rest => labels? (.value name (value ++ ['"'])) rest
  | .value name value, '\\' :: 'n' :: rest => labels? (.value name (value ++ ['\n'])) rest
  | .value name value, '"' :: ',' :: rest =>
    (labels? (.name []) rest).map fun (labels, after) =>
      ((String.ofList name, String.ofList value) :: labels, after)
  | .value name value, '"' :: '\x7d' :: rest =>
    some ([(String.ofList name, String.ofList value)], rest)
  | .value name value, c :: rest =>
    if c = '\\' ∨ c = '"' then none else labels? (.value name (value ++ [c])) rest
  | _, [] => none

/-- A metric name with labels, or without, and a number. -/
def sample? (cs : List Char) : Option (String × Sample) := do
  let (name, rest) ← name? cs
  let (labels, rest) ←
    match rest with
    | '\x7b' :: rest => labels? (.name []) rest
    | rest => some ([], rest)
  guard (labels.all (isMetricName ·.1))
  match rest with
  | ' ' :: number =>
    return (name, ⟨.ofList labels, ← Binary64.ofText? (String.ofList number)⟩)
  | _ => none

/-- What a `HELP` line begins with. -/
def helpMark : List Char := ['#', ' ', 'H', 'E', 'L', 'P', ' ']

/-- What a `TYPE` line begins with. -/
def typeMark : List Char := ['#', ' ', 'T', 'Y', 'P', 'E', ' ']

/-- What the line of a gauge ends with. -/
def gaugeMark : List Char := [' ', 'g', 'a', 'u', 'g', 'e']

def line? (cs : List Char) : Option Line :=
  if helpMark.isPrefixOf cs then do
    match ← name? (cs.drop helpMark.length) with
    | (name, ' ' :: text) => return .help name (String.ofList (← helpText? text))
    | _ => none
  else if typeMark.isPrefixOf cs then do
    let (name, rest) ← name? (cs.drop typeMark.length)
    guard (rest = gaugeMark)
    return .type name
  else do
    let (name, sample) ← sample? cs
    return .sample name sample

/-! ## Families -/

/-- The families of lines, and the samples in front of the first one. -/
def collect : List Line → Option (List (String × Sample) × List FamilySnapshot)
  | [] => some ([], [])
  | .sample name sample :: rest => do
    let (samples, families) ← collect rest
    return ((name, sample) :: samples, families)
  | .type name :: rest => do
    let (samples, families) ← collect rest
    guard (samples.all (·.1 = name))
    return ([], ⟨name, "", samples.map Prod.snd⟩ :: families)
  | .help name text :: rest => do
    match ← collect rest with
    | ([], family :: families) =>
      guard (family.name = name ∧ family.help = "")
      return ([], { family with help := text } :: families)
    | _ => none

/-- The families of a text. -/
def read? (text : String) : Option Snapshot := do
  let lines ← (← lines? text.toList).mapM line?
  let (samples, families) ← collect lines
  guard (samples = [] ∧ (families.map FamilySnapshot.name).Nodup)
  return families

example : read? "# TYPE up gauge\nup\x7bjob=\"a\\\"b\"\x7d 1\n" =
    some [⟨"up", "", [⟨.ofList [("job", "a\"b")], 1⟩]⟩] := by
  decide +kernel

end ClusterVitals.Exposition
