import ClusterVitals.Binary64.Decimal

/-!
# JSON values

Values as they stand in a text: numbers keep their decimal digits, and objects keep repeated names
and their order. What a number or a repeated name means is for the reader of a value to say.
-/

namespace ClusterVitals

/-- A JSON value. The text of a string, or of a name in an object, is `none` when its escapes give
half of a surrogate pair, which no text can hold. -/
inductive Json where
  | null
  | bool (value : Bool)
  | number (negative : Bool) (magnitude : Binary64.Decimal)
  | string (text : Option String)
  | array (elements : List Json)
  | object (members : List (Option String × Json))

namespace Json

/-- A string. -/
def ofString (s : String) : Json := .string (some s)

/-- A whole number. -/
def ofInt (n : Int) : Json := .number (n < 0) ⟨n.natAbs, 0⟩

/-- A natural number. -/
def ofNat (n : Nat) : Json := .number false ⟨n, 0⟩

/-- An object with the given members. -/
def ofMembers (members : List (String × Json)) : Json :=
  .object (members.map fun (name, value) => (some name, value))

/-- The value of a name in an object; the last one when the name is repeated. -/
def get? (name : String) : Json → Option Json
  | .object members => (members.reverse.find? (·.1 == some name)).map (·.2)
  | _ => none

/-- The text of a string. -/
def asString? : Json → Option String
  | .string text => text
  | _ => none

/-- The elements of an array. -/
def asArray? : Json → Option (List Json)
  | .array elements => some elements
  | _ => none

/-- The value of a boolean. -/
def asBool? : Json → Option Bool
  | .bool value => some value
  | _ => none

/-- The value of a number written without a point or an exponent. -/
def asInt? : Json → Option Int
  | .number negative ⟨digits, 0⟩ => some (if negative then -(digits : Int) else digits)
  | _ => none

/-- The value of a number that is whole and not negative. -/
def asNat? (j : Json) : Option Nat :=
  match j.asInt? with
  | some (.ofNat n) => some n
  | _ => none

/-- The floating-point number nearest to a number, unless that is infinite. -/
def asBinary64? : Json → Option Binary64
  | .number negative magnitude =>
    let x := Binary64.ofDecimal negative magnitude
    if x.isFinite then some x else none
  | _ => none

end Json

end ClusterVitals
