import ClusterVitals.Binary64.Text
import ClusterVitals.Log.Level
import ClusterVitals.Log.Pattern

/-!
# Fields in log filters

A directive may ask for a field of a span, by its name alone or with a value. A value is the first
of these that its text stands for: a truth value, a natural number, an integer, a number with a
fraction, a pattern.
-/

namespace ClusterVitals.LogFilter

/-- What the value of a field must be. -/
inductive FieldValue where
  | boolean (value : Bool)
  | natural (value : Nat)
  | integer (value : Int)
  | float (value : Binary64)
  | pattern (text : String)
  deriving DecidableEq, Repr

namespace FieldValue

/-- A natural number of sixty-four bits. -/
def natural? (text : List Char) : Option FieldValue := do
  let n ← number? text
  if n < Nat.pow 2 64 then some (.natural n) else none

/-- An integer of sixty-four bits that a text with a minus sign stands for. -/
def integer? : List Char → Option FieldValue
  | '-' :: digits =>
    if digits ≠ [] ∧ digits.all Char.isDigit ∧ Text.valueOf 10 digits ≤ Nat.pow 2 63 then
      some (.integer (-(Text.valueOf 10 digits : Int)))
    else none
  | _ => none

/-- The value that a text stands for. -/
def ofText? (text : String) : Option FieldValue :=
  if text = "true" then some (boolean true)
  else if text = "false" then some (boolean false)
  else
    natural? text.toList <|> integer? text.toList <|> (Binary64.ofText? text).map float <|>
      if Pattern.isPattern text then some (pattern text) else none

/-- The text of a value: numbers in their shortest form, patterns as they were written. -/
def text : FieldValue → String
  | boolean b => toString b
  | natural n => toString n
  | integer n => toString n
  | float x => x.plainText
  | pattern text => text

/-- The same value. The two zeros with a fraction are one. -/
def same : FieldValue → FieldValue → Bool
  | float x, float y => x == y || (x.isZero && y.isZero)
  | v, w => v == w

end FieldValue

/-- A field that a span must have. -/
structure Field where
  name : String
  value : Option FieldValue
  deriving DecidableEq, Repr

namespace Field

/-- A field by its text: the name, and the value after an equals sign. What follows a second equals
sign is not looked at. -/
def ofText? (text : String) : Option Field :=
  match text.splitOn "=" with
  | name :: value :: _ => do return ⟨name, some (← FieldValue.ofText? value)⟩
  | _ => some ⟨text, none⟩

/-- The text of a field. -/
def text (f : Field) : String :=
  match f.value with
  | some value => f.name ++ "=" ++ value.text
  | none => f.name

/-- The same field. -/
def same (f g : Field) : Bool :=
  f.name == g.name &&
    match f.value, g.value with
    | some v, some w => v.same w
    | none, none => true
    | _, _ => false

end Field

end ClusterVitals.LogFilter
