import ClusterVitals.Text.Digit

/-!
# Log levels

How much is let through. A level is written by its name, in letters of any case, or by its number.
-/

namespace ClusterVitals.LogFilter

/-- How much is let through. -/
inductive Level where
  | off | error | warn | info | debug | trace
  deriving DecidableEq, Repr

namespace Level

/-- The name of a level. -/
def text : Level → String
  | off => "off"
  | error => "error"
  | warn => "warn"
  | info => "info"
  | debug => "debug"
  | trace => "trace"

/-- A level by its number. -/
def ofNat? : Nat → Option Level
  | 0 => some off
  | 1 => some error
  | 2 => some warn
  | 3 => some info
  | 4 => some debug
  | 5 => some trace
  | _ => none

/-- A level by its name in lower case. -/
def ofName? : String → Option Level
  | "off" => some off
  | "error" => some error
  | "warn" => some warn
  | "info" => some info
  | "debug" => some debug
  | "trace" => some trace
  | _ => none

end Level

/-- The number that decimal digits, after a plus sign or none, stand for. -/
def number? (text : List Char) : Option Nat :=
  let digits :=
    match text with
    | '+' :: rest => rest
    | _ => text
  if digits ≠ [] ∧ digits.all Char.isDigit then some (Text.valueOf 10 digits) else none

/-- The level of a text. -/
def Level.ofText? (text : String) : Option Level :=
  match number? text.toList with
  | some n => ofNat? n
  | none => ofName? (String.ofList (text.toList.map Char.toLower))

/-- A level is read back from its name. -/
theorem Level.ofText?_text (level : Level) : Level.ofText? level.text = some level := by
  cases level <;> decide +kernel

end ClusterVitals.LogFilter
