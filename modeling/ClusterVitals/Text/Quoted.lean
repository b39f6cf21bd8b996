import ClusterVitals.Text.Unprintable

/-!
# Quoted text

The form in which messages show a text: between double quotes, with a backslash before quotes and
backslashes, short escapes for the usual control characters, and `\u` escapes for every other
character that has no visible form of its own.
-/

namespace ClusterVitals.Text

/-- A number in lower-case hexadecimal digits, without leading zeros. -/
def hexText (n : Nat) : String :=
  String.ofList (Nat.toDigits 16 n)

/-- How one character stands inside quotes. -/
def quotedChar (c : Char) : String :=
  match c with
  | '\x00' => "\\0"
  | '\t' => "\\t"
  | '\n' => "\\n"
  | '\r' => "\\r"
  | '"' => "\\\""
  | '\\' => "\\\\"
  | _ => if isUnprintable c then "\\u\x7b" ++ hexText c.toNat ++ "\x7d" else c.toString

/-- A text between double quotes, with every character shown visibly. -/
def quoted (s : String) : String :=
  "\"" ++ String.join (s.toList.map quotedChar) ++ "\""

end ClusterVitals.Text
