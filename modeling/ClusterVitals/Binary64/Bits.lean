import ClusterVitals.Binary64.Basic

/-!
# Bit patterns

The exact form in which numbers stand in records: the sixteen hexadecimal digits of the bits, with
one name for every NaN.
-/

namespace ClusterVitals.Binary64

/-- The value of a hexadecimal digit, in lower case. -/
def hexDigit? (c : Char) : Option Nat :=
  if c.isDigit then some (c.toNat - '0'.toNat)
  else if 'a' ≤ c ∧ c ≤ 'f' then some (c.toNat - 'a'.toNat + 10)
  else none

/-- The bits in sixteen hexadecimal digits after `0x`, or `nan`. -/
def bitsText : Binary64 → String
  | .nan => "nan"
  | x =>
    let digits := Nat.toDigits 16 x.toBits
    "0x" ++ String.ofList (List.replicate (16 - digits.length) '0' ++ digits)

/-- The number with the given bits. -/
def ofBitsText? (text : String) : Option Binary64 :=
  match text.toList with
  | ['n', 'a', 'n'] => some .nan
  | '0' :: 'x' :: digits => do
    guard (digits.length = 16)
    let values ← digits.mapM hexDigit?
    return ofBits (values.foldl (fun n v => n * 16 + v) 0)
  | _ => none

end ClusterVitals.Binary64
