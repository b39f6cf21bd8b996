/-!
# Binary floating point of 64 bits

The numbers of the IEEE 754 format `binary64`, with exact definitions over the natural numbers in
place of machine instructions, so that every operation can be reasoned about.

## Shape of a number

A number that is not a NaN is a sign and a *rank*: the position of its magnitude in the ascending
list of all magnitudes, from `0` for zero up to `infinityRank` for infinity. Ranks are also the low
63 bits of the format, and they order magnitudes as the numbers do.

A finite magnitude is a whole multiple of the least positive one, `2 ^ (-1074)`. `units` gives the
multiple that a rank stands for, and `roundedRank` finds the rank nearest to a quotient of units,
the even one of two when both are equally near.
-/

namespace ClusterVitals

/-- The rank of the infinite magnitude. -/
def Binary64.infinityRank : Nat := 0x7FF0000000000000

/-- A number of the format `binary64`. All NaNs are one value. -/
inductive Binary64 where
  | nan
  | number (negative : Bool) (rank : Nat) (rank_le : rank ≤ Binary64.infinityRank)
  deriving DecidableEq, Repr

namespace Binary64

/-- The magnitude at a finite rank, as a multiple of `2 ^ (-1074)`. -/
def units (rank : Nat) : Nat :=
  let exponent := rank / Nat.pow 2 52
  let fraction := rank % Nat.pow 2 52
  if exponent = 0 then fraction else (Nat.pow 2 52 + fraction) * Nat.pow 2 (exponent - 1)

/-- A quotient rounded to the nearest whole number, to the even one of two equally near. -/
def roundHalfEven (num den : Nat) : Nat :=
  let quotient := num / den
  let twice := 2 * (num % den)
  if twice < den then quotient
  else if den < twice then quotient + 1
  else quotient + quotient % 2

/-- The rank nearest to the magnitude `num / den` in units of `2 ^ (-1074)`. Fifty-three binary
digits are kept. A carry out of the last one moves into the next binade, as ranks are consecutive
across it. -/
def roundedRank (num den : Nat) : Nat :=
  let shift := (num / den).log2 - 52
  min infinityRank (shift * Nat.pow 2 52 + roundHalfEven num (den * Nat.pow 2 shift))

/-- The number nearest to `num / den` units of `2 ^ (-1074)`. -/
def ofUnits (negative : Bool) (num den : Nat) : Binary64 :=
  .number negative (roundedRank num den) (Nat.min_le_left ..)

/-- The number nearest to a quotient. -/
def ofQuotient (negative : Bool) (num den : Nat) : Binary64 :=
  ofUnits negative (num * Nat.pow 2 1074) den

/-- The number nearest to a natural number. -/
def ofNat (n : Nat) : Binary64 :=
  ofQuotient false n 1

/-- The number nearest to an integer. -/
def ofInt (n : Int) : Binary64 :=
  ofQuotient (n < 0) n.natAbs 1

instance (n : Nat) : OfNat Binary64 n := ⟨ofNat n⟩

/-- Infinity with a sign. -/
def infinity (negative : Bool) : Binary64 :=
  .number negative infinityRank (Nat.le_refl _)

/-- Zero with a sign. -/
def zero (negative : Bool) : Binary64 :=
  .number negative 0 (Nat.zero_le _)

/-- Neither a NaN nor infinite. -/
def isFinite : Binary64 → Bool
  | .nan => false
  | .number _ rank _ => rank != infinityRank

/-- Zero of either sign. -/
def isZero : Binary64 → Bool
  | .nan => false
  | .number _ rank _ => rank == 0

/-- The value of a finite number in units of `2 ^ (-1074)`. -/
def toUnits? : Binary64 → Option Int
  | .nan => none
  | .number negative rank _ =>
    if rank = infinityRank then none
    else some (if negative then -(units rank : Int) else units rank)

/-! ## Bits -/

/-- The bits of a number; every NaN has those of the quiet one without payload. -/
def toBits : Binary64 → Nat
  | .nan => 0x7FF8000000000000
  | .number negative rank _ => (if negative then Nat.pow 2 63 else 0) + rank

/-- The number with the given bits. -/
def ofBits (bits : Nat) : Binary64 :=
  let rank := bits % Nat.pow 2 63
  if h : rank ≤ infinityRank then .number (bits / Nat.pow 2 63 % 2 = 1) rank h else .nan

/-! ## Arithmetic -/

/-- Addition. The sum of two opposite numbers is positive zero, and only two negative zeros add up
to a negative one. -/
def add : Binary64 → Binary64 → Binary64
  | .number s₁ r₁ h₁, .number s₂ r₂ h₂ =>
    if r₁ = infinityRank then
      -- opposite infinities have no sum
      if r₂ = infinityRank ∧ s₁ ≠ s₂ then .nan else .number s₁ r₁ h₁
    else if r₂ = infinityRank then .number s₂ r₂ h₂
    else if s₁ = s₂ then ofUnits s₁ (units r₁ + units r₂) 1
    else if r₂ < r₁ then ofUnits s₁ (units r₁ - units r₂) 1
    else if r₁ < r₂ then ofUnits s₂ (units r₂ - units r₁) 1
    else zero false
  | _, _ => .nan

/-- Multiplication. -/
def mul : Binary64 → Binary64 → Binary64
  | .number s₁ r₁ _, .number s₂ r₂ _ =>
    let negative := s₁ != s₂
    if r₁ = infinityRank ∨ r₂ = infinityRank then
      -- infinity times zero has no value
      if r₁ = 0 ∨ r₂ = 0 then .nan else infinity negative
    else ofUnits negative (units r₁ * units r₂) (Nat.pow 2 1074)
  | _, _ => .nan

/-- Division. -/
def div : Binary64 → Binary64 → Binary64
  | .number s₁ r₁ _, .number s₂ r₂ _ =>
    let negative := s₁ != s₂
    if r₁ = infinityRank then
      if r₂ = infinityRank then .nan else infinity negative
    else if r₂ = infinityRank then zero negative
    else if r₂ = 0 then
      if r₁ = 0 then .nan else infinity negative
    else ofUnits negative (units r₁ * Nat.pow 2 1074) (units r₂)
  | _, _ => .nan

instance : Add Binary64 := ⟨add⟩
instance : Mul Binary64 := ⟨mul⟩
instance : Div Binary64 := ⟨div⟩

/-- The smaller of two numbers; a NaN gives way to the other one. -/
def minimum : Binary64 → Binary64 → Binary64
  | .nan, y => y
  | x, .nan => x
  | .number s₁ r₁ h₁, .number s₂ r₂ h₂ =>
    let x := .number s₁ r₁ h₁
    let y := .number s₂ r₂ h₂
    match s₁, s₂ with
    | true, false => x
    | false, true => y
    | false, false => if r₂ < r₁ then y else x
    | true, true => if r₁ < r₂ then y else x

/-- The order of numbers, in which the two zeros are equal and a NaN is less than nothing. -/
def lt : Binary64 → Binary64 → Bool
  | .number s₁ r₁ _, .number s₂ r₂ _ =>
    match s₁, s₂ with
    | false, false => r₁ < r₂
    | true, true => r₂ < r₁
    | true, false => r₁ != 0 || r₂ != 0
    | false, true => false
  | _, _ => false

/-- Repeated squaring: a factor for every binary digit of the exponent that is one. -/
def powLoop (result base : Binary64) (exponent : Nat) : Binary64 :=
  let result := if exponent % 2 = 1 then result * base else result
  if exponent < 2 then result else powLoop result (base * base) (exponent / 2)
termination_by exponent
decreasing_by omega

/-- A power with a natural exponent, by repeated squaring from the lowest binary digit up. -/
def pow (base : Binary64) (exponent : Nat) : Binary64 :=
  powLoop 1 base exponent

/-! ## Small laws -/

@[simp] theorem ofBits_toBits (x : Binary64) : ofBits x.toBits = x := by
  cases x with
  | nan => rfl
  | number negative rank h =>
    have hr : rank < Nat.pow 2 63 := Nat.lt_of_le_of_lt h (by decide)
    cases negative with
    | false =>
      have h₁ : (0 + rank) % Nat.pow 2 63 = rank := by rw [Nat.zero_add, Nat.mod_eq_of_lt hr]
      have h₂ : (0 + rank) / Nat.pow 2 63 % 2 = 0 := by rw [Nat.zero_add, Nat.div_eq_of_lt hr]
      simp only [toBits, ofBits, Bool.false_eq_true, if_false, h₁, h₂, h, dite_true]
      rfl
    | true =>
      have h₁ : (Nat.pow 2 63 + rank) % Nat.pow 2 63 = rank := by
        rw [Nat.add_mod_left, Nat.mod_eq_of_lt hr]
      have h₂ : (Nat.pow 2 63 + rank) / Nat.pow 2 63 % 2 = 1 := by
        rw [Nat.add_div_left _ (by decide), Nat.div_eq_of_lt hr]
      simp only [toBits, ofBits, if_true, h₁, h₂, h, dite_true, decide_true]

end Binary64

end ClusterVitals
