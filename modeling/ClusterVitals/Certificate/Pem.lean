import ClusterVitals.Text.Base64
import ClusterVitals.Text.Blank
import ClusterVitals.Text.Utf8

/-!
# PEM

Key material comes as text: a `BEGIN` line, lines of base64 and an `END` line. Only the first block
is read, and no line after its `END` line is looked at.

## Shape of the reader

The bytes are cut into lines, each with the newline that ends it. `search` passes over lines until
one begins a block, and `collect` joins the lines of the block without the blanks at their ends.
Every line must be UTF-8 at the moment it is read.
-/

namespace ClusterVitals.Certificate.Pem

/-- Why bytes hold no block. -/
inductive Failure where
  | missingHeader
  | invalidHeader
  | incomplete
  | base64
  | notText
  deriving DecidableEq, Repr

/-- The text of a failure. -/
def Failure.message : Failure → String
  | missingHeader => "missing header"
  | invalidHeader => "invalid header"
  | incomplete => "incomplete PEM"
  | base64 => "base64 decode error"
  | notText => "IO error: stream did not contain valid UTF-8"

/-- The lines of a byte sequence, each with the newline that ends it; the last may have none. -/
def lines : List UInt8 → List (List UInt8)
  | [] => []
  | b :: rest =>
    if b = 0x0A then [b] :: lines rest
    else
      match lines rest with
      | [] => [[b]]
      | line :: more => (b :: line) :: more

/-- Cutting lines loses no byte. -/
theorem flatten_lines (bytes : List UInt8) : (lines bytes).flatten = bytes := by
  induction bytes with
  | nil => rfl
  | cons b rest ih =>
    rw [lines]
    split
    · simp [ih]
    · split <;> simp_all

/-- The five hyphens at either end of a boundary. -/
def hyphens : List Char := "-----".toList

/-- The start of a line that begins a block. -/
def beginMark : List Char := "-----BEGIN ".toList

/-- The start of a line that ends a block. -/
def endMark : List Char := "-----END ".toList

/-- Five hyphens stand somewhere in a text. -/
def hasHyphens : List Char → Bool
  | [] => false
  | c :: rest => hyphens.isPrefixOf (c :: rest) || hasHyphens rest

/-- The characters of a block up to its `END` line. -/
def collect (body : List Char) : List (List UInt8) → Except Failure (List Char)
  | [] => .error .incomplete
  | line :: rest =>
    match Text.Utf8.decode? line with
    | none => .error .notText
    | some cs =>
      if endMark.isPrefixOf cs then .ok body
      else collect (body ++ Text.trimRight cs) rest

/-- The characters of the first block. -/
def search : List (List UInt8) → Except Failure (List Char)
  | [] => .error .missingHeader
  | line :: rest =>
    match Text.Utf8.decode? line with
    | none => .error .notText
    | some cs =>
      if beginMark.isPrefixOf cs then
        if hasHyphens (cs.drop hyphens.length) then collect [] rest else .error .invalidHeader
      else search rest

/-- The bytes of the first block. -/
def decode (bytes : List UInt8) : Except Failure (List UInt8) := do
  let body ← search (lines bytes)
  match Text.Base64.decode? body with
  | some contents => .ok contents
  | none => .error .base64

end ClusterVitals.Certificate.Pem
