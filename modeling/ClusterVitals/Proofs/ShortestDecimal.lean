import ClusterVitals.Binary64.Text
import ClusterVitals.Proofs.RetryDelay
import Mathlib.Algebra.Order.Field.Rat
import Mathlib.Algebra.Order.Field.Power
import Mathlib.Data.List.TakeWhile
import Mathlib.Tactic.FieldSimp
import Mathlib.Tactic.Positivity

/-!
# Numbers are read back from their texts

The shortest decimal of a number reads back as this number, and so does its text.

## Shape of the proofs

The exact value of a decimal, a rational number, decides what the decimal reads back as
(`ofDecimal_of_value`). Decimals are chosen to read back. What is done to them afterwards, taking
zeros from the end and writing them in positional notation, keeps their values.
-/

namespace ClusterVitals

namespace Text

theorem digit?_digitChar {d : Nat} (h : d < 10) : digit? d.digitChar = some d := by
  revert d
  decide

/-- The digits of a number have its value. -/
theorem valueOf_toDigits (n : Nat) : valueOf 10 (Nat.toDigits 10 n) = n := by
  induction n using Nat.strong_induction_on with
  | _ n ih =>
    by_cases hsmall : n < 10
    · rw [Nat.toDigits_of_lt_base hsmall]
      simp [valueOf, digit?_digitChar hsmall]
    · have hdigit := digit?_digitChar (Nat.mod_lt n (by decide : 0 < 10))
      rw [Nat.toDigits_of_base_le (by decide) (Nat.le_of_not_lt hsmall), valueOf_concat,
        ih (n / 10) (by omega), hdigit]
      exact Nat.div_add_mod' n 10

/-- Zeros in front do not count. -/
theorem valueOf_replicate (k : Nat) (digits : List Char) :
    valueOf 10 (List.replicate k '0' ++ digits) = valueOf 10 digits := by
  have hzeros : (List.replicate k '0').foldl (fun n c => n * 10 + (digit? c).getD 0) 0 = 0 := by
    induction k with
    | zero => rfl
    | succ k ih => exact ih
  rw [valueOf, List.foldl_append, hzeros]
  rfl

end Text

namespace Binary64

/-! ## Rounding of equal quotients -/

theorem roundHalfEven_scale {k : Nat} (h : 0 < k) (num den : Nat) :
    roundHalfEven (num * k) (den * k) = roundHalfEven num den := by
  unfold roundHalfEven
  rw [Nat.mul_div_mul_right _ _ h, Nat.mul_mod_mul_right, ← Nat.mul_assoc]
  simp only [Nat.mul_lt_mul_right h]

theorem roundedRank_scale {k : Nat} (h : 0 < k) (num den : Nat) :
    roundedRank (num * k) (den * k) = roundedRank num den := by
  unfold roundedRank
  dsimp only
  rw [Nat.mul_div_mul_right _ _ h, Nat.mul_right_comm den k, roundHalfEven_scale h]

/-- Equal quotients have one rank. -/
theorem roundedRank_congr {num den num' den' : Nat} (hden : 0 < den) (hden' : 0 < den')
    (h : num * den' = num' * den) : roundedRank num den = roundedRank num' den' := by
  rw [← roundedRank_scale hden', h, Nat.mul_comm den den', roundedRank_scale hden]

/-- A finite magnitude has the rank that it stands at. -/
theorem roundedRank_units {rank : Nat} (h : rank < infinityRank) :
    roundedRank (units rank) 1 = rank := by
  have hrank := Nat.div_add_mod' rank (2 ^ 52)
  have hlt : rank % 2 ^ 52 < 2 ^ 52 := Nat.mod_lt _ (Nat.two_pow_pos 52)
  suffices hkept : ((units rank).log2 - 52) * 2 ^ 52 +
      roundHalfEven (units rank) (2 ^ ((units rank).log2 - 52)) = rank by
    simp only [roundedRank, Nat.div_one, Nat.one_mul, Nat.pow_eq, hkept]
    exact Nat.min_eq_right (Nat.le_of_lt h)
  unfold units
  simp only [Nat.pow_eq]
  generalize rank / 2 ^ 52 = exponent at hrank ⊢
  generalize rank % 2 ^ 52 = fraction at hrank hlt ⊢
  rcases exponent with _ | shift
  · -- the least magnitudes are their own ranks
    have hlog : fraction.log2 - 52 = 0 := by
      by_cases hzero : fraction = 0
      · rw [hzero]
        rfl
      · have hlog := (Nat.log2_lt hzero).2 hlt
        omega
    have hround := roundHalfEven_mul Nat.one_pos fraction
    rw [if_pos rfl, hlog, Nat.pow_zero]
    rw [Nat.mul_one] at hround
    omega
  · have hlog : ((2 ^ 52 + fraction) * 2 ^ shift).log2 - 52 = shift := by
      have hdigits : (2 ^ 52 + fraction).log2 = 52 :=
        (Nat.log2_eq_iff (by omega)).2 ⟨by omega, by omega⟩
      rw [log2_mul_two_pow (by omega), hdigits, Nat.add_sub_cancel_left]
    rw [if_neg (Nat.succ_ne_zero _), Nat.add_sub_cancel, hlog,
      roundHalfEven_mul (Nat.two_pow_pos _), ← hrank, Nat.succ_mul, Nat.add_assoc]

/-! ## What decimals read back as -/

/-- The exact value of a decimal. -/
def Decimal.value (d : Decimal) : ℚ := d.digits * 10 ^ d.exponent

/-- The position of the decimal point after the first digit of all. -/
def Decimal.point (d : Decimal) : Int := d.exponent + digitCount d.digits

theorem digitCount_pos (n : Nat) : 0 < digitCount n := by
  rw [digitCount, List.length_pos_iff]
  exact Nat.toDigits_ne_nil

theorem lt_ten_pow_digitCount (n : Nat) : n < 10 ^ digitCount n :=
  (Nat.length_toDigits_le_iff (by decide) (digitCount_pos n)).1 (Nat.le_refl _)

theorem digitCount_mono {m n : Nat} (h : m ≤ n) : digitCount m ≤ digitCount n :=
  (Nat.length_toDigits_le_iff (by decide) (digitCount_pos n)).2
    (Nat.lt_of_le_of_lt h (lt_ten_pow_digitCount n))

theorem ten_pow_le_of_lt_digitCount {n k : Nat} (h : n ≠ 0) (hk : k < digitCount n) :
    10 ^ k ≤ n := by
  by_contra hlt
  rcases Nat.eq_zero_or_pos k with rfl | hpos
  · rw [Nat.pow_zero] at hlt
    omega
  · have hle := (Nat.length_toDigits_le_iff (by decide) hpos).2 (Nat.lt_of_not_le hlt)
    exact absurd hk (Nat.not_lt.2 hle)

namespace Decimal

variable {d d' : Decimal}

theorem value_pos (h : d.digits ≠ 0) : 0 < d.value := by
  have hpos : (0 : ℚ) < d.digits := by exact_mod_cast Nat.pos_of_ne_zero h
  rw [value]
  positivity

theorem digits_ne_zero_iff : d.digits ≠ 0 ↔ d.value ≠ 0 := by
  constructor
  · exact fun h => (value_pos h).ne'
  · intro h hzero
    exact h (by simp [value, hzero])

theorem value_lt (d : Decimal) : d.value < 10 ^ d.point := by
  have hdigits : (d.digits : ℚ) < 10 ^ (digitCount d.digits : Int) := by
    exact_mod_cast lt_ten_pow_digitCount d.digits
  rw [value, point, add_comm, zpow_add₀ (by norm_num)]
  exact mul_lt_mul_of_pos_right hdigits (by positivity)

theorem le_value (h : d.digits ≠ 0) : 10 ^ (d.point - 1) ≤ d.value := by
  have hpos : 0 < digitCount d.digits := digitCount_pos _
  have hdigits : (10 : ℚ) ^ ((digitCount d.digits : Int) - 1) ≤ d.digits := by
    have hle := ten_pow_le_of_lt_digitCount h (Nat.sub_lt hpos Nat.one_pos)
    rw [← Nat.cast_pred hpos, zpow_natCast]
    exact_mod_cast hle
  rw [value, point, add_sub_assoc, add_comm, zpow_add₀ (by norm_num)]
  exact mul_le_mul_of_nonneg_right hdigits (by positivity)

/-- The value tells where the point is. -/
theorem point_congr (h : d.digits ≠ 0) (heq : d.value = d'.value) : d.point = d'.point := by
  have h' : d'.digits ≠ 0 := by
    rw [digits_ne_zero_iff, ← heq, ← digits_ne_zero_iff]
    exact h
  have hten : (1 : ℚ) < 10 := by norm_num
  have hlt : d.point - 1 < d'.point :=
    (zpow_lt_zpow_iff_right₀ hten).1 ((le_value h).trans_lt (heq ▸ d'.value_lt))
  have hlt' : d'.point - 1 < d.point :=
    (zpow_lt_zpow_iff_right₀ hten).1 ((le_value h').trans_lt (heq ▸ d.value_lt))
  omega

/-- Zeros at the end only move the point. -/
theorem value_trimmed (d : Decimal) : d.trimmed.value = d.value := by
  induction d using trimmed.induct with
  | case1 d h ih =>
    have hdigits : d.digits = d.digits / 10 * 10 := by omega
    rw [trimmed, dif_pos h, ih, value, value, zpow_add_one₀ (by norm_num)]
    conv_rhs => rw [hdigits]
    push_cast
    ring
  | case2 d h => rw [trimmed, dif_neg h]

end Decimal

/-- A decimal reads back as one rank with either sign. -/
theorem exists_ofDecimal (d : Decimal) :
    ∃ rank h, ∀ negative, ofDecimal negative d = number negative rank h := by
  unfold ofDecimal
  split
  · exact ⟨0, Nat.zero_le _, fun _ => rfl⟩
  · split
    · exact ⟨infinityRank, Nat.le_refl _, fun _ => rfl⟩
    · split
      · exact ⟨0, Nat.zero_le _, fun _ => rfl⟩
      · split <;> exact ⟨_, Nat.min_le_left .., fun _ => rfl⟩

theorem ofUnits_congr {num den num' den' : Nat} (h : roundedRank num den = roundedRank num' den')
    (negative : Bool) : ofUnits negative num den = ofUnits negative num' den' := by
  simp only [ofUnits, h]

/-- Equal quotients are rounded to one number. -/
theorem ofQuotient_congr {num den num' den' : Nat} (hden : 0 < den) (hden' : 0 < den')
    (h : (num / den : ℚ) = num' / den') (negative : Bool) :
    ofQuotient negative num den = ofQuotient negative num' den' := by
  have hcross : num * den' = num' * den := by
    rw [div_eq_div_iff (by positivity) (by positivity)] at h
    exact_mod_cast h
  refine ofUnits_congr (roundedRank_congr hden hden' ?_) negative
  rw [Nat.mul_right_comm, hcross, Nat.mul_right_comm]

/-- A decimal within the range of the format reads back as the number nearest to its value. -/
theorem ofDecimal_of_value {d : Decimal} {num den : Nat} (nonzero : d.digits ≠ 0)
    (low : -400 ≤ d.point) (high : d.exponent ≤ 400) (hden : 0 < den)
    (value : d.value = num / den) (negative : Bool) :
    ofDecimal negative d = ofQuotient negative num den := by
  have hlow : ¬d.exponent + digitCount d.digits < -400 := Int.not_lt.2 low
  unfold ofDecimal
  rw [if_neg nonzero, if_neg (Int.not_lt.2 high), if_neg hlow]
  split
  · rename_i hexponent
    refine ofQuotient_congr Nat.one_pos hden ?_ negative
    obtain ⟨zeros, hzeros⟩ := Int.eq_ofNat_of_zero_le hexponent
    rw [← value, Decimal.value, hzeros, zpow_natCast]
    simp
  · rename_i hexponent
    refine ofQuotient_congr (Nat.pow_pos (by decide)) hden ?_ negative
    obtain ⟨places, hplaces⟩ : ∃ places : Nat, -d.exponent = places :=
      Int.eq_ofNat_of_zero_le (by omega)
    rw [← value, Decimal.value, hplaces, ← neg_neg d.exponent, hplaces, zpow_neg]
    simp [div_eq_mul_inv]

/-- A decimal that reads back as a positive finite magnitude is within the range of the format. -/
theorem range_of_ofDecimal {d : Decimal} {rank : Nat} {h : rank ≤ infinityRank}
    (reads : ofDecimal false d = number false rank h) (positive : rank ≠ 0)
    (finite : rank ≠ infinityRank) : d.digits ≠ 0 ∧ -400 ≤ d.point ∧ d.exponent ≤ 400 := by
  unfold ofDecimal at reads
  split at reads
  · exact absurd (number.inj reads).2.symm positive
  · split at reads
    · exact absurd (number.inj reads).2.symm finite
    · split at reads
      · exact absurd (number.inj reads).2.symm positive
      · rename_i hdigits hhigh hlow
        exact ⟨hdigits, Int.not_lt.1 hlow, Int.not_lt.1 hhigh⟩

/-- A decimal of the same value reads back as the same number, unless it stands for it with a high
power of ten. -/
theorem ofDecimal_congr {d d' : Decimal} {rank : Nat} {h : rank ≤ infinityRank}
    (reads : ofDecimal false d = number false rank h) (positive : rank ≠ 0)
    (finite : rank ≠ infinityRank) (value : d'.value = d.value) (high : d'.exponent ≤ 400)
    (negative : Bool) : ofDecimal negative d' = number negative rank h := by
  obtain ⟨hdigits, hlow, hhigh⟩ := range_of_ofDecimal reads positive finite
  have hdigits' : d'.digits ≠ 0 := by
    rwa [Decimal.digits_ne_zero_iff, value, ← Decimal.digits_ne_zero_iff]
  have hlow' : -400 ≤ d'.point := by
    rwa [← Decimal.point_congr hdigits value.symm]
  -- some quotient has the value of both
  obtain ⟨num, den, hden, hvalue⟩ : ∃ num den : Nat, 0 < den ∧ d.value = num / den := by
    have hnum : 0 ≤ d.value.num := Rat.num_nonneg.2 (Decimal.value_pos hdigits).le
    refine ⟨d.value.num.toNat, d.value.den, d.value.den_pos, ?_⟩
    rw [← Int.cast_natCast (R := ℚ) d.value.num.toNat, Int.toNat_of_nonneg hnum, Rat.num_div_den]
  have hfirst := ofDecimal_of_value hdigits hlow hhigh hden hvalue
  have hsecond := ofDecimal_of_value hdigits' hlow' high hden (value.trans hvalue)
  obtain ⟨r, hr, hsigns⟩ := exists_ofDecimal d
  rw [hsigns] at reads
  obtain rfl : r = rank := (number.inj reads).2
  rw [hsecond, ← hfirst, hsigns]

/-! ## The shortest decimal -/

section

variable {rank : Nat}

/-- A neighbour is chosen only if it reads back. -/
theorem reads_of_neighbour? {exponent : Int} {d : Decimal} (h : neighbour? rank exponent = some d) :
    ∃ hle, ofDecimal false d = number false rank hle := by
  unfold neighbour? at h
  extract_lets scaled below above readsBack at h
  have hreads (e : Decimal) (he : readsBack e = true) :
      ∃ hle, ofDecimal false e = number false rank hle := by
    obtain ⟨r, hr, hsigns⟩ := exists_ofDecimal e
    simp only [readsBack, hsigns] at he
    obtain rfl : r = rank := by simpa using he
    exact ⟨hr, hsigns false⟩
  split_ifs at h with habove hbelow
  · obtain rfl := Option.some.inj h
    exact hreads _ ((Bool.and_eq_true _ _).mp habove).1
  · obtain rfl := Option.some.inj h
    exact hreads _ hbelow

/-- A multiple of a power of two below one, written with a power of ten. -/
theorem five_pow_mul (n k : Nat) :
    ((n * Nat.pow 5 k : Nat) : ℚ) * 10 ^ (-(k : Int)) = n / (Nat.pow 2 k : Nat) := by
  have hten : (10 : ℚ) = 5 * 2 := by norm_num
  simp only [Nat.pow_eq]
  rw [zpow_neg, zpow_natCast, hten, mul_pow]
  push_cast
  field_simp

/-- The exact value reads back. -/
theorem reads_exactDecimal (positive : rank ≠ 0) (finite : rank < infinityRank) :
    ofDecimal false (exactDecimal rank) = number false rank (Nat.le_of_lt finite) := by
  obtain ⟨k, hk⟩ : ∃ k, k = 1074 := ⟨_, rfl⟩
  have hvalue := five_pow_mul (units rank) k
  have hmany : 673 < digitCount (Nat.pow 5 k) := by
    subst hk
    decide +kernel
  have hscale : 0 < Nat.pow 2 k := Nat.pow_pos (by decide)
  have hexponent : (-1074 : Int) = -k := by omega
  rw [exactDecimal, hexponent, ← hk]
  generalize Nat.pow 5 k = five at hvalue hmany ⊢
  have hunits : units rank ≠ 0 := by
    intro hzero
    have hkept := roundedRank_units finite
    rw [hzero] at hkept
    exact positive hkept.symm
  have hfive : five ≠ 0 := by
    rintro rfl
    exact absurd hmany (by decide)
  have hdigits : units rank * five ≠ 0 := Nat.mul_ne_zero hunits hfive
  -- the digits are so many that the point stands far to the right of the first one
  have hlow : -400 ≤ Decimal.point ⟨units rank * five, -k⟩ := by
    have hcount : 673 < digitCount (units rank * five) :=
      Nat.lt_of_lt_of_le hmany
        (digitCount_mono (Nat.le_mul_of_pos_left _ (Nat.pos_of_ne_zero hunits)))
    show -400 ≤ -(k : Int) + (digitCount (units rank * five) : Int)
    omega
  have hhigh : -(k : Int) ≤ 400 := by omega
  rw [ofDecimal_of_value hdigits hlow hhigh hscale hvalue, ofQuotient, ofUnits, ← hk]
  generalize Nat.pow 2 k = scale at hscale ⊢
  have hrank : roundedRank (units rank * scale) scale = rank := by
    have hkept := roundedRank_scale hscale (units rank) 1
    rw [Nat.one_mul] at hkept
    rw [hkept, roundedRank_units finite]
  simp only [hrank]

/-- The shortest decimal reads back. -/
theorem reads_shortest (positive : rank ≠ 0) (finite : rank < infinityRank) :
    ofDecimal false (shortest rank) = number false rank (Nat.le_of_lt finite) := by
  unfold shortest
  dsimp only
  rcases hfound : (List.range 17).findSome? fun n =>
      neighbour? rank (pointPosition rank - (n + 1 : Nat)) with _ | d
  · exact reads_exactDecimal positive finite
  · obtain ⟨n, -, hneighbour⟩ := List.exists_of_findSome?_eq_some hfound
    exact (reads_of_neighbour? hneighbour).2

end

/-! ## Texts -/

/-- What is written in positional notation: digits, and then a point and more digits, or not. -/
inductive Numeral : List Char → Decimal → Prop where
  | whole {digits : List Char} (nonempty : digits ≠ []) (all : ∀ c ∈ digits, c.isDigit) :
      Numeral digits ⟨Text.valueOf 10 digits, 0⟩
  | pointed {before after : List Char} (nonempty : before ≠ []) (all : ∀ c ∈ before, c.isDigit)
      (all' : ∀ c ∈ after, c.isDigit) :
      Numeral (before ++ '.' :: after) ⟨Text.valueOf 10 (before ++ after), -(after.length : Int)⟩

namespace Numeral

variable {cs : List Char} {d : Decimal}

/-- What is written in positional notation is read. -/
theorem ofChars? (h : Numeral cs d) : Decimal.ofChars? cs = some d := by
  cases h with
  | whole nonempty all =>
    rw [Decimal.ofChars?, List.takeWhile_eq_self_iff.2 all, List.dropWhile_eq_nil_iff.2 all]
    simp [nonempty, exponent?]
  | @pointed before after nonempty all all' =>
    have hpoint : ¬('.' : Char).isDigit := by decide
    rw [Decimal.ofChars?, List.takeWhile_append_of_pos all, List.dropWhile_append_of_pos all,
      List.takeWhile_cons_of_neg hpoint, List.dropWhile_cons_of_neg hpoint]
    simp [List.takeWhile_eq_self_iff.2 all', List.dropWhile_eq_nil_iff.2 all', nonempty, exponent?]

/-- A text in positional notation begins with a digit. -/
theorem exists_digit (h : Numeral cs d) : ∃ c rest, cs = c :: rest ∧ c.isDigit := by
  cases h with
  | whole nonempty all =>
    obtain ⟨c, rest, rfl⟩ := List.exists_cons_of_ne_nil nonempty
    exact ⟨c, rest, rfl, all c List.mem_cons_self⟩
  | @pointed before after nonempty all all' =>
    obtain ⟨c, rest, rfl⟩ := List.exists_cons_of_ne_nil nonempty
    exact ⟨c, rest ++ '.' :: after, rfl, all c List.mem_cons_self⟩

/-- It has no characters but digits and the point. -/
theorem digit_or_point (h : Numeral cs d) : ∀ c ∈ cs, c.isDigit ∨ c = '.' := by
  cases h with
  | whole nonempty all => exact fun c hc => .inl (all c hc)
  | pointed nonempty all all' =>
    intro c hc
    rcases List.mem_append.1 hc with hc | hc
    · exact .inl (all c hc)
    · rcases List.mem_cons.1 hc with rfl | hc
      · exact .inr rfl
      · exact .inl (all' c hc)

/-- Digits are a numeral with a point put between them. -/
theorem pointed_at {digits : List Char} (all : ∀ c ∈ digits, c.isDigit) {places : Nat}
    (more : places < digits.length) :
    Numeral (digits.take (digits.length - places) ++ '.' :: digits.drop (digits.length - places))
      ⟨Text.valueOf 10 digits, -(places : Int)⟩ := by
  have hnonempty : digits.take (digits.length - places) ≠ [] :=
    List.ne_nil_of_length_pos (by rw [List.length_take]; omega)
  have hplaces : (digits.drop (digits.length - places)).length = places := by
    rw [List.length_drop]
    omega
  have hbefore : ∀ c ∈ digits.take (digits.length - places), c.isDigit :=
    fun c hc => all c (List.mem_of_mem_take hc)
  have hafter : ∀ c ∈ digits.drop (digits.length - places), c.isDigit :=
    fun c hc => all c (List.mem_of_mem_drop hc)
  have hnumeral := Numeral.pointed hnonempty hbefore hafter
  rwa [List.take_append_drop, hplaces] at hnumeral

end Numeral

theorem isDigit_toDigits {n : Nat} : ∀ c ∈ Nat.toDigits 10 n, c.isDigit :=
  fun _ hc => Nat.isDigit_of_mem_toDigits (by decide) (by decide) hc

/-- A decimal is written in positional notation, and with its value. -/
theorem numeral_positional (d : Decimal) :
    ∃ d', Numeral d.positional.toList d' ∧ d'.value = d.value ∧ d'.exponent ≤ 0 := by
  unfold Decimal.positional
  split
  · rename_i hexponent
    obtain ⟨zeros, hzeros⟩ := Int.eq_ofNat_of_zero_le hexponent
    refine ⟨⟨Text.valueOf 10 (Nat.toDigits 10 (d.digits * Nat.pow 10 d.exponent.toNat)), 0⟩,
      ?_, ?_, Int.le_refl 0⟩
    · rw [Nat.toString_eq_repr, Nat.repr_eq_ofList_toDigits, String.toList_ofList]
      exact .whole Nat.toDigits_ne_nil isDigit_toDigits
    · rw [Text.valueOf_toDigits, Decimal.value, Decimal.value, hzeros, zpow_natCast]
      simp
  · rename_i hexponent
    obtain ⟨places, hplaces⟩ : ∃ places : Nat, -d.exponent = places :=
      Int.eq_ofNat_of_zero_le (by omega)
    rw [hplaces, Int.toNat_natCast]
    extract_lets _ digits text
    have hall : ∀ c ∈ text, c.isDigit := by
      intro c hc
      rcases List.mem_append.1 hc with hc | hc
      · rw [List.eq_of_mem_replicate hc]
        decide
      · exact isDigit_toDigits c hc
    have hmore : places < text.length := by
      rw [List.length_append, List.length_replicate]
      omega
    refine ⟨⟨Text.valueOf 10 text, -(places : Int)⟩, ?_, ?_,
      Int.neg_nonpos_of_nonneg (Int.natCast_nonneg places)⟩
    · simp only [String.toList_append, String.toList_ofList, List.append_assoc]
      exact Numeral.pointed_at hall hmore
    · rw [Text.valueOf_replicate, Text.valueOf_toDigits, ← hplaces, neg_neg]

/-- The text of the shortest decimal is read back. -/
theorem numeral_shortest {rank : Nat} (positive : rank ≠ 0) (finite : rank < infinityRank) :
    ∃ d, Numeral (shortest rank).trimmed.positional.toList d ∧
      ∀ negative, ofDecimal negative d = number negative rank (Nat.le_of_lt finite) := by
  obtain ⟨d, hnumeral, hvalue, hexponent⟩ := numeral_positional (shortest rank).trimmed
  refine ⟨d, hnumeral, fun negative => ?_⟩
  have hvalue : d.value = (shortest rank).value := hvalue.trans (Decimal.value_trimmed _)
  exact ofDecimal_congr (reads_shortest positive finite) positive (Nat.ne_of_lt finite) hvalue
    (by omega) negative

theorem toLower_of_isDigit {c : Char} (h : c.isDigit) : c.toLower = c := by
  simp only [Char.isDigit, Bool.and_eq_true, decide_eq_true_eq] at h
  refine dif_neg fun hupper => ?_
  exact absurd (UInt32.le_trans hupper.1 h.2) (by decide)

/-- What begins with a digit is not a name. -/
theorem ne_name {c : Char} {rest name : List Char} (h : c.isDigit)
    (letters : name.all (!·.isDigit)) :
    String.ofList ((c :: rest).map Char.toLower) ≠ String.ofList name := by
  intro heq
  have hchars : (c :: rest).map Char.toLower = name := String.ofList_injective heq
  rw [← hchars, List.map_cons, List.all_cons, toLower_of_isDigit h, h] at letters
  cases letters

/-- A text in positional notation is read with either sign. -/
theorem ofText?_numeral {cs : List Char} {d : Decimal} (h : Numeral cs d) (negative : Bool) :
    ofText? (signText negative ++ String.ofList cs) = some (ofDecimal negative d) := by
  obtain ⟨c, rest, rfl, hdigit⟩ := h.exists_digit
  have hsign : splitSign (signText negative ++ String.ofList (c :: rest)).toList =
      (negative, c :: rest) := by
    cases negative with
    | true => simp [signText, splitSign]
    | false =>
      have hplus : c ≠ '+' := by
        rintro rfl
        exact absurd hdigit (by decide)
      have hminus : c ≠ '-' := by
        rintro rfl
        exact absurd hdigit (by decide)
      simp [signText, splitSign, hplus, hminus]
  rw [ofText?, hsign]
  dsimp only
  rw [if_neg (ne_name hdigit (by decide)), if_neg, h.ofChars?]
  · rfl
  · rintro (hinf | hinf)
    · exact ne_name hdigit (by decide) hinf
    · exact ne_name hdigit (by decide) hinf

/-- Every number is read back from its text. -/
theorem ofText?_plainText (x : Binary64) : ofText? x.plainText = some x := by
  cases x with
  | nan => rfl
  | number negative rank h =>
    rw [plainText]
    split_ifs with hinfinite hzero
    · subst hinfinite
      cases negative <;> rfl
    · subst hzero
      cases negative <;> rfl
    · have hfinite : rank < infinityRank := Nat.lt_of_le_of_ne h hinfinite
      obtain ⟨d, hnumeral, hreads⟩ := numeral_shortest hzero hfinite
      have hread := ofText?_numeral hnumeral negative
      rwa [String.ofList_toList, hreads] at hread

/-- The text of a number is on one line. -/
theorem newline_notMem_plainText (x : Binary64) : '\n' ∉ x.plainText.toList := by
  cases x with
  | nan => decide
  | number negative rank h =>
    rw [plainText, String.toList_append, List.mem_append]
    rintro (hsign | hmagnitude)
    · cases negative <;> simp [signText] at hsign
    · split_ifs at hmagnitude with hinfinite hzero
      · exact absurd hmagnitude (by decide)
      · exact absurd hmagnitude (by decide)
      · obtain ⟨d, hnumeral, -⟩ := numeral_shortest hzero (Nat.lt_of_le_of_ne h hinfinite)
        exact absurd (hnumeral.digit_or_point _ hmagnitude) (by decide)

end Binary64

end ClusterVitals
