/-!
# Parts of a text by byte offsets

An offset in bytes is a boundary of a text when a character begins there or the text ends. Texts can be
cut at boundaries only.
-/

namespace ClusterVitals.Text

/-- The number of bytes that characters take. -/
def byteCount : List Char → Nat
  | [] => 0
  | c :: rest => c.utf8Size + byteCount rest

/-- Splits characters at a byte offset, if that is a boundary. -/
def splitBytes? : Nat → List Char → Option (List Char × List Char)
  | 0, cs => some ([], cs)
  | _ + 1, [] => none
  | n + 1, c :: rest =>
    if c.utf8Size ≤ n + 1 then do
      let (before, after) ← splitBytes? (n + 1 - c.utf8Size) rest
      return (c :: before, after)
    else none

/-- The characters between two byte offsets, if both are boundaries. -/
def slice? (cs : List Char) (start stop : Nat) : Option (List Char) := do
  let (_, rest) ← splitBytes? start cs
  let (part, _) ← splitBytes? (stop - start) rest
  return part

end ClusterVitals.Text
