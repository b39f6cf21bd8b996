import ClusterVitals.Binary64.Decimal
import ClusterVitals.Text.Digit

/-!
# Reading binary numbers

The texts that stand for a number: a sign or none, and then digits with or without a point and a power
of ten, or the name of an infinity or of NaN.
-/

namespace ClusterVitals.Binary64

open ClusterVitals.Text (valueOf)

/-- The sign in front of a number, `true` for a minus, and what follows it. -/
def splitSign : List Char → Bool × List Char
  | '+' :: rest => (false, rest)
  | '-' :: rest => (true, rest)
  | cs => (false, cs)

/-- The power of ten at the end of a number. It is zero when there is none. -/
def exponent? : List Char → Option Int
  | [] => some 0
  | mark :: rest =>
    let (negative, digits) := splitSign rest
    if (mark = 'e' ∨ mark = 'E') ∧ digits ≠ [] ∧ digits.all Char.isDigit then
      let n := valueOf 10 digits
      some (if negative then -(n : Int) else n)
    else none

/-- A decimal with digits before the point, after it or on both sides. -/
def Decimal.ofChars? (cs : List Char) : Option Decimal := do
  let whole := cs.takeWhile Char.isDigit
  let (places, rest) :=
    match cs.dropWhile Char.isDigit with
    | '.' :: rest => (rest.takeWhile Char.isDigit, rest.dropWhile Char.isDigit)
    | rest => ([], rest)
  guard (whole ++ places ≠ [])
  return ⟨valueOf 10 (whole ++ places), (← exponent? rest) - places.length⟩

/-- The number that a text stands for. Names are in letters of any case. -/
def ofText? (text : String) : Option Binary64 :=
  let (negative, cs) := splitSign text.toList
  let name := String.ofList (cs.map Char.toLower)
  if name = "nan" then some .nan
  else if name = "inf" ∨ name = "infinity" then some (infinity negative)
  else (Decimal.ofChars? cs).map (ofDecimal negative)

end ClusterVitals.Binary64
