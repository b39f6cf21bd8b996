import ClusterVitals.Json.Basic

/-!
# Records in JSON

A record has a fixed list of fields. It stands in JSON as an object with a member for each field, or
as an array with the values of the fields in order.
-/

namespace ClusterVitals.Json

/-- The value of the only member of a name. -/
def only? (members : List (Option String × Json)) (name : String) : Option Json :=
  match members.filter (·.1 == some name) with
  | [(_, value)] => some value
  | _ => none

/-- The values of the fields of a record, in the order of `fields`. An object must have each field
exactly once, may have members of other names, and all its names must be texts. -/
def record? (fields : List String) : Json → Option (List Json)
  | .array elements => if elements.length = fields.length then some elements else none
  | .object members =>
    if members.all (·.1.isSome) then fields.mapM (only? members) else none
  | _ => none

end ClusterVitals.Json
