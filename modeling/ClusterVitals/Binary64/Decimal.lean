import ClusterVitals.Binary64.Basic

/-!
# Decimal text of binary numbers

`ofDecimal` is the number nearest to a decimal, and `shortest` the decimal with the fewest digits
that reads back as a given number: of two such decimals the nearer, and of two equally near ones
the greater. `plainText` and `pointText` write that decimal without a power of ten, however long it
gets: the first as a gauge value is exposed, and the second, which marks whole numbers by a point, as
documents hold and messages show a floating-point number.
-/

namespace ClusterVitals.Binary64

/-- A decimal `digits * 10 ^ exponent`. -/
structure Decimal where
  digits : Nat
  exponent : Int
  deriving DecidableEq, Repr

/-- The number of decimal digits of a natural number; zero has one. -/
def digitCount (n : Nat) : Nat :=
  (Nat.toDigits 10 n).length

/-- The number nearest to a decimal. Decimals far outside the range of the format are infinite or
zero without their powers of ten being formed. -/
def ofDecimal (negative : Bool) (d : Decimal) : Binary64 :=
  if d.digits = 0 then zero negative
  else if 400 < d.exponent then infinity negative
  else if d.exponent + digitCount d.digits < -400 then zero negative
  else if 0 ≤ d.exponent then ofQuotient negative (d.digits * Nat.pow 10 d.exponent.toNat) 1
  else ofQuotient negative d.digits (Nat.pow 10 (-d.exponent).toNat)

/-- The exact value of a finite rank as a decimal: a multiple of `2 ^ (-1074)` is a multiple of
`10 ^ (-1074)`. -/
def exactDecimal (rank : Nat) : Decimal :=
  ⟨units rank * Nat.pow 5 1074, -1074⟩

/-- The position of the decimal point of a positive finite magnitude: the least `p` with the
magnitude below `10 ^ p`. -/
def pointPosition (rank : Nat) : Int :=
  digitCount (units rank * Nat.pow 10 400 / Nat.pow 2 1074) - 400

/-- Of the two neighbours of a magnitude among the multiples of `10 ^ exponent`, the one that reads
back as the magnitude; the nearer one, or the greater of equally near ones, when both do. -/
def neighbour? (rank : Nat) (exponent : Int) : Option Decimal :=
  let scaled := if 0 ≤ exponent then (units rank, Nat.pow 2 1074 * Nat.pow 10 exponent.toNat)
    else (units rank * Nat.pow 10 (-exponent).toNat, Nat.pow 2 1074)
  let below : Decimal := ⟨scaled.1 / scaled.2, exponent⟩
  let above : Decimal := ⟨scaled.1 / scaled.2 + 1, exponent⟩
  let readsBack (d : Decimal) : Bool :=
    match ofDecimal false d with
    | .number false r _ => r == rank
    | _ => false
  if readsBack above && (scaled.2 ≤ 2 * (scaled.1 % scaled.2) || !readsBack below) then some above
  else if readsBack below then some below
  else none

/-- The decimal with the fewest digits that reads back as a positive finite magnitude. Seventeen
digits always suffice; the exact value stands behind them. -/
def shortest (rank : Nat) : Decimal :=
  let point := pointPosition rank
  ((List.range 17).findSome? fun n => neighbour? rank (point - (n + 1 : Nat))).getD
    (exactDecimal rank)

/-- A decimal without zeros at the end of its digits. -/
def Decimal.trimmed (d : Decimal) : Decimal :=
  if h : d.digits ≠ 0 ∧ d.digits % 10 = 0 then
    Decimal.trimmed ⟨d.digits / 10, d.exponent + 1⟩
  else d
termination_by d.digits
decreasing_by omega

/-- A decimal in positional notation. A whole number has no point. -/
def Decimal.positional (d : Decimal) : String :=
  if 0 ≤ d.exponent then toString (d.digits * Nat.pow 10 d.exponent.toNat)
  else
    let places := (-d.exponent).toNat
    let text := Nat.toDigits 10 d.digits
    let text := List.replicate (places + 1 - text.length) '0' ++ text
    String.ofList (text.take (text.length - places)) ++ "." ++
      String.ofList (text.drop (text.length - places))

/-- The sign of a number before its magnitude. -/
def signText (negative : Bool) : String :=
  if negative then "-" else ""

/-- The shortest text that reads back, always in positional notation and without a point after a
whole number. -/
def plainText : Binary64 → String
  | .nan => "NaN"
  | .number negative rank _ =>
    signText negative ++
      (if rank = infinityRank then "inf"
        else if rank = 0 then "0"
        else (shortest rank).trimmed.positional)

/-- The shortest text that reads back, in positional notation and with a point in every finite
number. -/
def pointText (x : Binary64) : String :=
  let text := x.plainText
  if x.isFinite ∧ ¬text.contains '.' then text ++ ".0" else text

end ClusterVitals.Binary64
