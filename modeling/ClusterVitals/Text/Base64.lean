/-!
# Base64

The padded form of base64. Text is read in groups of four characters; a group may end in one or two
`=`, and the bits that such a group leaves unused must be zero. Padded groups may follow one another.

`encode` writes the form that `decode?` reads back.
-/

namespace ClusterVitals.Text.Base64

/-- The six bits a character of the alphabet stands for. -/
def value? (c : Char) : Option Nat :=
  let n := c.toNat
  if 0x41 ≤ n ∧ n ≤ 0x5A then some (n - 0x41)
  else if 0x61 ≤ n ∧ n ≤ 0x7A then some (n - 0x61 + 26)
  else if 0x30 ≤ n ∧ n ≤ 0x39 then some (n - 0x30 + 52)
  else if c = '+' then some 62
  else if c = '/' then some 63
  else none

/-- The character of the alphabet that stands for six bits. -/
def letter (v : Nat) : Char :=
  if v < 26 then Char.ofNat (0x41 + v)
  else if v < 52 then Char.ofNat (0x61 + (v - 26))
  else if v < 62 then Char.ofNat (0x30 + (v - 52))
  else if v = 62 then '+'
  else '/'

/-- The bytes of one group of four characters. -/
def group? (a b c d : Char) : Option (List UInt8) := do
  let va ← value? a
  let vb ← value? b
  if c = '=' then
    if d = '=' ∧ vb % 16 = 0 then some [UInt8.ofNat (va * 4 + vb / 16)] else none
  else
    let vc ← value? c
    if d = '=' then
      if vc % 4 = 0 then
        some [UInt8.ofNat (va * 4 + vb / 16), UInt8.ofNat (vb % 16 * 16 + vc / 4)]
      else none
    else
      let vd ← value? d
      some [UInt8.ofNat (va * 4 + vb / 16), UInt8.ofNat (vb % 16 * 16 + vc / 4),
        UInt8.ofNat (vc % 4 * 64 + vd)]

/-- The bytes of a text in base64. -/
def decode? : List Char → Option (List UInt8)
  | [] => some []
  | a :: b :: c :: d :: rest => do
    let bytes ← group? a b c d
    return bytes ++ (← decode? rest)
  | _ => none

/-- The text of bytes in base64, padded to whole groups. -/
def encode : List UInt8 → List Char
  | [] => []
  | [x] => [letter (x.toNat / 4), letter (x.toNat % 4 * 16), '=', '=']
  | [x, y] =>
    [letter (x.toNat / 4), letter (x.toNat % 4 * 16 + y.toNat / 16), letter (y.toNat % 16 * 4), '=']
  | x :: y :: z :: rest =>
    letter (x.toNat / 4) :: letter (x.toNat % 4 * 16 + y.toNat / 16) ::
      letter (y.toNat % 16 * 4 + z.toNat / 64) :: letter (z.toNat % 64) :: encode rest

/-! ## Reading back -/

theorem value?_letter {v : Nat} (h : v < 64) : value? (letter v) = some v := by
  revert h
  revert v
  decide +kernel

theorem letter_ne_pad {v : Nat} (h : v < 64) : letter v ≠ '=' := by
  revert h
  revert v
  decide +kernel

theorem group?_of_one {a b : Nat} (ha : a < 64) (hb : b < 64) (hu : b % 16 = 0) :
    group? (letter a) (letter b) '=' '=' = some [UInt8.ofNat (a * 4 + b / 16)] := by
  simp [group?, value?_letter ha, value?_letter hb, hu]

theorem group?_of_two {a b c : Nat} (ha : a < 64) (hb : b < 64) (hc : c < 64) (hu : c % 4 = 0) :
    group? (letter a) (letter b) (letter c) '=' =
      some [UInt8.ofNat (a * 4 + b / 16), UInt8.ofNat (b % 16 * 16 + c / 4)] := by
  simp [group?, value?_letter ha, value?_letter hb, value?_letter hc, letter_ne_pad hc, hu]

theorem group?_of_three {a b c d : Nat} (ha : a < 64) (hb : b < 64) (hc : c < 64) (hd : d < 64) :
    group? (letter a) (letter b) (letter c) (letter d) =
      some [UInt8.ofNat (a * 4 + b / 16), UInt8.ofNat (b % 16 * 16 + c / 4),
        UInt8.ofNat (c % 4 * 64 + d)] := by
  simp [group?, value?_letter ha, value?_letter hb, value?_letter hc, value?_letter hd,
    letter_ne_pad hc, letter_ne_pad hd]

/-- A byte is known by its value. -/
theorem ofNat_eq (x : UInt8) {n : Nat} (h : n = x.toNat) : UInt8.ofNat n = x := by
  rw [h, UInt8.ofNat_toNat]

/-- Reading gives back the bytes that were written. -/
theorem decode?_encode (bytes : List UInt8) : decode? (encode bytes) = some bytes := by
  fun_induction encode bytes with
  | case1 => rfl
  | case2 x =>
    have hx := x.toNat_lt
    rw [decode?, group?_of_one (by omega) (by omega) (by omega), ofNat_eq x (by omega)]
    rfl
  | case3 x y =>
    have hx := x.toNat_lt
    have hy := y.toNat_lt
    rw [decode?, group?_of_two (by omega) (by omega) (by omega) (by omega),
      ofNat_eq x (by omega), ofNat_eq y (by omega)]
    rfl
  | case4 x y z rest ih =>
    have hx := x.toNat_lt
    have hy := y.toNat_lt
    have hz := z.toNat_lt
    rw [decode?, group?_of_three (by omega) (by omega) (by omega) (by omega), ih,
      ofNat_eq x (by omega), ofNat_eq y (by omega), ofNat_eq z (by omega)]
    rfl

end ClusterVitals.Text.Base64
