import ClusterVitals.Json.Basic
import ClusterVitals.Text.Quoted

/-!
# Writing JSON

The compact form: no white space, and escapes only for quotes, backslashes and control characters.
-/

namespace ClusterVitals.Json

/-- How one character stands in a string. -/
def escapedChar (c : Char) : String :=
  match c with
  | '"' => "\\\""
  | '\\' => "\\\\"
  | '\x08' => "\\b"
  | '\x0c' => "\\f"
  | '\n' => "\\n"
  | '\r' => "\\r"
  | '\t' => "\\t"
  | _ =>
    if c.toNat < 0x20 then
      "\\u00" ++ (if c.toNat < 0x10 then "0" else "") ++ Text.hexText c.toNat
    else c.toString

/-- A string between quotes. -/
def renderString (s : String) : String :=
  "\"" ++ String.join (s.toList.map escapedChar) ++ "\""

/-- A text, or `null` in the place of one that no text can hold. -/
def renderText : Option String → String
  | some s => renderString s
  | none => "null"

mutual

/-- The compact form of a value. -/
def render : Json → String
  | .null => "null"
  | .bool value => if value then "true" else "false"
  | .number negative magnitude =>
    Binary64.signText negative ++ toString magnitude.digits ++
      if magnitude.exponent = 0 then "" else "e" ++ toString magnitude.exponent
  | .string text => renderText text
  | .array elements => "[" ++ ",".intercalate (renderElements elements) ++ "]"
  | .object members => "\x7b" ++ ",".intercalate (renderMembers members) ++ "\x7d"

/-- The compact forms of elements. -/
def renderElements : List Json → List String
  | [] => []
  | element :: rest => render element :: renderElements rest

/-- The compact forms of members. -/
def renderMembers : List (Option String × Json) → List String
  | [] => []
  | (name, value) :: rest => (renderText name ++ ":" ++ render value) :: renderMembers rest

end

end ClusterVitals.Json
