import ClusterVitals.Binary64.Decimal
import ClusterVitals.Metrics.Registry

/-!
# Exposition

The text in which gauges are handed to a monitoring system. Each family that has samples takes an
optional `HELP` line, a `TYPE` line and one line per sample.
-/

namespace ClusterVitals.Exposition

/-- Why a snapshot cannot be exposed. -/
inductive Failure where
  | namelessFamily
  deriving DecidableEq, Repr

/-- The text of a failure. -/
def Failure.message : Failure → String
  | namelessFamily => "Error: MetricFamily has no name"

/-- The name under which a metric is exposed. -/
def exposedName (namePrefix : Option String) (metric : String) : String :=
  match namePrefix with
  | some p => p ++ "_" ++ metric
  | none => metric

/-- How one character stands in a help text. -/
def helpChar : Char → List Char
  | '\\' => ['\\', '\\']
  | '\n' => ['\\', 'n']
  | c => [c]

/-- How one character stands in the value of a label. -/
def labelChar : Char → List Char
  | '\\' => ['\\', '\\']
  | '"' => ['\\', '"']
  | '\n' => ['\\', 'n']
  | c => [c]

/-- A help text with its special characters escaped. -/
def escapeHelp (s : String) : String := String.ofList (s.toList.flatMap helpChar)

/-- The value of a label with its special characters escaped. -/
def escapeLabel (s : String) : String := String.ofList (s.toList.flatMap labelChar)

/-- One label with its value. -/
def labelText (label : String × String) : String :=
  label.1 ++ "=\"" ++ escapeLabel label.2 ++ "\""

/-- The labels of a sample between braces; nothing without labels. -/
def labelsText (labels : LabelSet) : String :=
  if labels.pairs.isEmpty then ""
  else "\x7b" ++ ",".intercalate (labels.pairs.map labelText) ++ "\x7d"

/-- The line of one sample. -/
def sampleLine (name : String) (sample : Sample) : String :=
  name ++ labelsText sample.labels ++ " " ++ sample.value.plainText ++ "\n"

/-- The line with the help text of a family; nothing without help. -/
def helpLine (name help : String) : String :=
  if help.isEmpty then "" else "# HELP " ++ name ++ " " ++ escapeHelp help ++ "\n"

/-- All lines of one family under its exposed name. -/
def familyText (name : String) (family : FamilySnapshot) : String :=
  helpLine name family.help ++ "# TYPE " ++ name ++ " gauge\n" ++
    String.join (family.samples.map (sampleLine name))

/-- The text of a snapshot. Families without samples are left out. -/
def render (snapshot : Snapshot) (namePrefix : Option String) : Except Failure String := do
  let shown := snapshot.filter (!·.samples.isEmpty)
  let texts ← shown.mapM fun family => do
    let name := exposedName namePrefix family.name
    if name.isEmpty then throw .namelessFamily
    return familyText name family
  return String.join texts

end ClusterVitals.Exposition
