import ClusterVitals.Proofs.RetryDelay

/-!
# How far rounding goes

The number nearest to a quotient is off by half a unit of its last place at most, greater quotients
have nearest numbers that are not smaller, and what is at least one stays so when it is multiplied.

## Shape of the proofs

A rank is a binade and the digits in it (`units_binade`), and rounding keeps to the binade of the
quotient or moves to the start of the next one (`binade_roundedRank`). The error of a rounding is
then the error of rounding to a whole number of units in that binade.
-/

namespace ClusterVitals

namespace Binary64

/-! ## Whole numbers -/

/-- Rounding to a whole number is off by one half at most. -/
theorem roundHalfEven_half {num den : Nat} (h : 0 < den) :
    2 * (roundHalfEven num den * den) ≤ 2 * num + den ∧
      2 * num ≤ 2 * (roundHalfEven num den * den) + den := by
  have hnum := Nat.div_add_mod' num den
  have hlt := Nat.mod_lt num h
  have hnext : (num / den + 1) * den = num / den * den + den := Nat.succ_mul _ _
  unfold roundHalfEven
  dsimp only
  rcases Nat.mod_two_eq_zero_or_one (num / den) with heven | hodd
  · simp only [heven, Nat.add_zero]
    split_ifs <;> omega
  · simp only [hodd]
    split_ifs <;> omega

/-- A number less than one half away is the one that rounding finds. -/
theorem roundHalfEven_eq {num den n : Nat} (below : 2 * num < 2 * (n * den) + den)
    (above : 2 * (n * den) < 2 * num + den) : roundHalfEven num den = n := by
  have hden : 0 < den := by omega
  obtain ⟨hhigh, hlow⟩ := @roundHalfEven_half num den hden
  have hup : roundHalfEven num den * den < (n + 1) * den := by rw [Nat.succ_mul]; omega
  have hdown : n * den < (roundHalfEven num den + 1) * den := by rw [Nat.succ_mul]; omega
  have hup := Nat.lt_of_mul_lt_mul_right hup
  have hdown := Nat.lt_of_mul_lt_mul_right hdown
  omega

/-! ## Binades -/

/-- The digits of a magnitude in its binade; the first number of the next binade counts as well. -/
def FitsBinade (shift digits : Nat) : Prop :=
  (shift = 0 ∨ 2 ^ 52 ≤ digits) ∧ digits ≤ 2 ^ 53

theorem units_binade {shift digits : Nat} (h : FitsBinade shift digits) :
    units (shift * 2 ^ 52 + digits) = digits * 2 ^ shift := by
  obtain ⟨hlow, hhigh⟩ := h
  by_cases hsmall : digits < 2 ^ 52
  · -- without the leading digit, the magnitude is its own rank
    obtain rfl : shift = 0 := hlow.resolve_right (Nat.not_le.2 hsmall)
    have hexponent : (0 * 2 ^ 52 + digits) / 2 ^ 52 = 0 := by omega
    have hfraction : (0 * 2 ^ 52 + digits) % 2 ^ 52 = digits := by omega
    unfold units
    simp only [Nat.pow_eq]
    rw [hexponent, hfraction, if_pos rfl, Nat.pow_zero, Nat.mul_one]
  · rcases Nat.lt_or_eq_of_le hhigh with hlt | rfl
    · exact units_of_digits (Nat.not_lt.1 hsmall) hlt
    · have hrank : shift * 2 ^ 52 + 2 ^ 53 = (shift + 1) * 2 ^ 52 + 2 ^ 52 := by omega
      have hnext : 2 ^ 52 * 2 ^ (shift + 1) = 2 ^ 53 * 2 ^ shift := by ring
      rw [hrank, units_of_digits (Nat.le_refl _) (by decide), hnext]

/-- The binade of a quotient. -/
def binade (num den : Nat) : Nat := (num / den).log2 - 52

theorem roundedRank_eq (num den : Nat) :
    roundedRank num den = min infinityRank
      (binade num den * 2 ^ 52 + roundHalfEven num (den * 2 ^ binade num den)) := by
  unfold roundedRank binade
  simp only [Nat.pow_eq]

/-- Rounding keeps to the binade of the quotient. -/
theorem fitsBinade_roundHalfEven (num : Nat) {den : Nat} (h : 0 < den) :
    FitsBinade (binade num den) (roundHalfEven num (den * 2 ^ binade num den)) := by
  have hpos : 0 < den * 2 ^ binade num den := Nat.mul_pos h (Nat.two_pow_pos _)
  have hdiv : num / (den * 2 ^ binade num den) = num / den / 2 ^ binade num den :=
    (Nat.div_div_eq_div_mul _ _ _).symm
  have hlog : (num / den).log2 < binade num den + 53 := by unfold binade; omega
  have hbelow : num / den < 2 ^ 53 * 2 ^ binade num den := by
    calc num / den < 2 ^ ((num / den).log2 + 1) := Nat.lt_log2_self
      _ ≤ 2 ^ (53 + binade num den) := Nat.pow_le_pow_right (by decide) (by omega)
      _ = 2 ^ 53 * 2 ^ binade num den := Nat.pow_add _ _ _
  have hquotient : num / den / 2 ^ binade num den < 2 ^ 53 := (Nat.div_lt_iff_lt_mul (Nat.two_pow_pos _)).2 hbelow
  constructor
  · rcases Nat.eq_zero_or_pos (binade num den) with hzero | hshift
    · exact .inl hzero
    · right
      have hlog : (num / den).log2 = 52 + binade num den := by unfold binade at hshift ⊢; omega
      have hne : num / den ≠ 0 := by
        intro h0
        rw [h0] at hlog
        have : Nat.log2 0 = 0 := rfl
        omega
      have habove : 2 ^ 52 * 2 ^ binade num den ≤ num / den := by
        rw [← Nat.pow_add, ← hlog]
        exact Nat.log2_self_le hne
      have hfloor : 2 ^ 52 ≤ num / (den * 2 ^ binade num den) := by
        rw [hdiv]
        exact (Nat.le_div_iff_mul_le (Nat.two_pow_pos _)).2 habove
      unfold roundHalfEven
      dsimp only
      split_ifs <;> omega
  · rw [← hdiv] at hquotient
    unfold roundHalfEven
    dsimp only
    split_ifs <;> omega

/-! ## Quotients -/

/-- Below `2 ^ (53 + e)` units, rounding is off by half of `2 ^ e` units at most. -/
theorem roundedRank_half {num den e : Nat} (hden : 0 < den) (below : num < 2 ^ (53 + e) * den)
    (small : e ≤ 2044) :
    2 * (units (roundedRank num den) * den) ≤ 2 * num + 2 ^ e * den ∧
      2 * num ≤ 2 * (units (roundedRank num den) * den) + 2 ^ e * den ∧
      roundedRank num den ≠ infinityRank := by
  have hbinade : binade num den ≤ e := by
    have hlog : (num / den).log2 < 53 + e := by
      rcases Nat.eq_zero_or_pos (num / den) with hzero | hpos
      · rw [hzero]
        exact Nat.lt_of_lt_of_le (by decide) (Nat.le_add_right 53 e)
      · exact (Nat.log2_lt (Nat.ne_of_gt hpos)).2 ((Nat.div_lt_iff_lt_mul hden).2 below)
    unfold binade
    omega
  have hfits := fitsBinade_roundHalfEven num hden
  have hfinite :
      binade num den * 2 ^ 52 + roundHalfEven num (den * 2 ^ binade num den) < infinityRank := by
    have hdigits := hfits.2
    have hshift : binade num den ≤ 2044 := Nat.le_trans hbinade small
    unfold infinityRank
    omega
  rw [roundedRank_eq, Nat.min_eq_right (Nat.le_of_lt hfinite), units_binade hfits]
  obtain ⟨hhigh, hlow⟩ := @roundHalfEven_half num (den * 2 ^ binade num den)
    (Nat.mul_pos hden (Nat.two_pow_pos _))
  have hunits (digits : Nat) : digits * 2 ^ binade num den * den =
      digits * (den * 2 ^ binade num den) := by ring
  have hstep : den * 2 ^ binade num den ≤ 2 ^ e * den := by
    rw [Nat.mul_comm]
    exact Nat.mul_le_mul_right _ (Nat.pow_le_pow_right (by decide) hbinade)
  rw [hunits]
  exact ⟨by omega, by omega, Nat.ne_of_lt hfinite⟩

/-- Of two quotients the greater one has the nearest number that is not smaller. -/
theorem roundedRank_mono {num num' den : Nat} (hden : 0 < den) (h : num ≤ num') :
    roundedRank num den ≤ roundedRank num' den := by
  rw [roundedRank_eq, roundedRank_eq]
  refine min_le_min_left _ ?_
  have hquotient : num / den ≤ num' / den := Nat.div_le_div_right h
  have hbinade : binade num den ≤ binade num' den := by
    refine Nat.sub_le_sub_right ?_ 52
    rcases Nat.eq_zero_or_pos (num / den) with hzero | hpos
    · rw [hzero]
      exact Nat.zero_le _
    · exact (Nat.le_log2 (by omega)).2 (Nat.le_trans (Nat.log2_self_le (by omega)) hquotient)
  rcases Nat.lt_or_eq_of_le hbinade with hlt | heq
  · -- a higher binade begins where the lower one ends
    obtain ⟨-, hhigh⟩ := fitsBinade_roundHalfEven num hden
    obtain ⟨hlow, -⟩ := fitsBinade_roundHalfEven num' hden
    have hlow := hlow.resolve_left (by omega)
    omega
  · rw [heq]
    exact Nat.add_le_add_left (roundHalfEven_mono h) _

theorem roundedRank_zero (den : Nat) : roundedRank 0 den = 0 := by
  rw [roundedRank_eq]
  simp [binade, roundHalfEven, Nat.log2]

/-! ## Numbers of at least one -/

/-- The rank of one. -/
def oneRank : Nat := 1023 * Nat.pow 2 52

/-- Not a NaN, and not less than one. -/
def AtLeastOne (x : Binary64) : Prop := ∃ rank h, x = number false rank h ∧ oneRank ≤ rank

theorem one_eq : ∃ h, (1 : Binary64) = number false oneRank h := ⟨by decide, by decide +kernel⟩

/-- Products of numbers that are at least one are so, too. -/
theorem AtLeastOne.mul {x y : Binary64} (hx : x.AtLeastOne) (hy : y.AtLeastOne) :
    (x * y).AtLeastOne := by
  obtain ⟨r, hr, rfl, hone⟩ := hx
  obtain ⟨s, hs, rfl, hone'⟩ := hy
  have hpos : 0 < oneRank := by decide
  show (Binary64.mul _ _).AtLeastOne
  unfold Binary64.mul
  dsimp only
  split_ifs with hinfinite hzero
  · omega
  · exact ⟨infinityRank, Nat.le_refl _, rfl, by decide⟩
  · refine ⟨_, _, rfl, ?_⟩
    have hproduct : units oneRank * units oneRank ≤ units r * units s :=
      Nat.mul_le_mul (units_mono hone) (units_mono hone')
    calc oneRank = roundedRank (units oneRank * units oneRank) (Nat.pow 2 1074) := by
          decide +kernel
      _ ≤ roundedRank (units r * units s) (Nat.pow 2 1074) :=
          roundedRank_mono (by decide +kernel) hproduct

/-- Powers of a number that is at least one are at least one, or infinite. -/
theorem AtLeastOne.pow {base : Binary64} (h : base.AtLeastOne) (exponent : Nat) :
    (base.pow exponent).AtLeastOne := by
  obtain ⟨hone, heq⟩ := one_eq
  exact powLoop_of_mul AtLeastOne.mul ⟨oneRank, hone, heq, Nat.le_refl _⟩ h

theorem atLeastOne_of_not_lt {x : Binary64} (h : ¬x.lt 1) (finite : x.isFinite) : x.AtLeastOne := by
  have hunsigned := unsigned_of_not_lt_one h
  rcases x with _ | ⟨s, rank, hrank⟩
  · cases finite
  · obtain rfl : s = false := hunsigned
    obtain ⟨hone, heq⟩ := one_eq
    rw [heq] at h
    exact ⟨rank, hrank, rfl, Nat.not_lt.1 (by simpa [lt] using h)⟩

/-- Zero times infinity has no value. -/
theorem zero_mul_number (rank : Nat) (h : rank ≤ infinityRank) :
    zero false * number false rank h = if rank = infinityRank then nan else zero false := by
  have hpos : 0 < oneRank := by decide
  show Binary64.mul (number false 0 _) _ = _
  unfold Binary64.mul
  dsimp only
  by_cases hinfinite : rank = infinityRank
  · rw [if_pos (.inr hinfinite), if_pos (.inl rfl), if_pos hinfinite]
  · have hrank : roundedRank (units 0 * units rank) (Nat.pow 2 1074) = 0 := by
      rw [show units 0 = 0 from rfl, Nat.zero_mul, roundedRank_zero]
    rw [if_neg (not_or.2 ⟨by decide, hinfinite⟩), if_neg hinfinite]
    simp only [ofUnits, hrank, bne_self_eq_false, zero]

theorem zero_minimum (rank : Nat) (h : rank ≤ infinityRank) :
    (zero false).minimum (number false rank h) = zero false := by
  show (if rank < 0 then number false rank h else zero false) = zero false
  exact if_neg (Nat.not_lt_zero rank)

end Binary64

end ClusterVitals
