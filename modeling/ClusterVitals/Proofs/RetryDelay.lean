import ClusterVitals.Config.Validity
import Mathlib.Order.Monotone.Basic
import Mathlib.Tactic.Ring

/-!
# How long a retry waits

No retry waits longer than the longest delay of the settings, in seconds as floating-point numbers
have them, and rounded to nanoseconds again. Whole seconds come out of this as they are. If the
longest delay is a duration then, every retry of valid settings has a delay.

## Shape of the proofs

Rounding to a whole number and the step from ranks to magnitudes are both monotone, so the smaller
of two numbers of seconds has the shorter duration. Rounding keeps what has no more than fifty-three
binary digits. The delays of a retry are products of numbers that are not negative.
-/

namespace ClusterVitals

namespace Binary64

/-! ## Rounding is monotone -/

/-- Magnitudes grow with their ranks: within a binade the fraction grows, and the next binade begins
above the last fraction. -/
theorem units_mono : Monotone units := by
  refine monotone_nat_of_le_succ fun rank => ?_
  have hpos : 0 < Nat.pow 2 52 := by decide
  unfold units
  generalize Nat.pow 2 52 = binade at hpos ⊢
  have hlt : rank % binade < binade := Nat.mod_lt rank hpos
  have hrank := Nat.div_add_mod rank binade
  have hnext := Nat.div_add_mod (rank + 1) binade
  dsimp only
  by_cases hlast : binade ∣ rank + 1
  · have hfraction : (rank + 1) % binade = 0 := Nat.mod_eq_zero_of_dvd hlast
    have hexponent : (rank + 1) / binade = rank / binade + 1 := Nat.succ_div_of_dvd hlast
    rw [hexponent, hfraction, if_neg (Nat.succ_ne_zero _)]
    split_ifs with hzero
    · rw [hzero]
      simpa using Nat.le_of_lt hlt
    · obtain ⟨e, he⟩ := Nat.exists_eq_succ_of_ne_zero hzero
      rw [he]
      calc (binade + rank % binade) * 2 ^ e
          ≤ (2 * binade) * 2 ^ e := Nat.mul_le_mul_right _ (by omega)
        _ = (binade + 0) * 2 ^ (e + 1) := by ring
  · have hexponent : (rank + 1) / binade = rank / binade := Nat.succ_div_of_not_dvd hlast
    rw [hexponent] at hnext ⊢
    have hfraction : rank % binade ≤ (rank + 1) % binade := by omega
    split_ifs
    · exact hfraction
    · exact Nat.mul_le_mul_right _ (Nat.add_le_add_left hfraction _)

/-- Rounding keeps order. -/
theorem roundHalfEven_mono {num num' den : Nat} (h : num ≤ num') :
    roundHalfEven num den ≤ roundHalfEven num' den := by
  have hquotient : num / den ≤ num' / den := Nat.div_le_div_right h
  have hnum := Nat.div_add_mod num den
  have hnum' := Nat.div_add_mod num' den
  unfold roundHalfEven
  dsimp only
  rcases Nat.lt_or_eq_of_le hquotient with hlt | heq
  · -- the quotient of the smaller number is rounded up by one at most
    split_ifs <;> omega
  · -- of two remainders of one quotient the greater is not rounded down if the smaller is not
    have hmod : num % den ≤ num' % den := by
      rw [heq] at hnum
      omega
    rw [heq]
    split_ifs <;> omega

/-! ## Numbers that need no rounding -/

/-- Whole numbers need no rounding. -/
theorem roundHalfEven_mul {den : Nat} (h : 0 < den) (n : Nat) :
    roundHalfEven (n * den) den = n := by
  unfold roundHalfEven
  rw [Nat.mul_mod_left, Nat.mul_div_cancel n h]
  simp [h]

/-- The rank of a magnitude with fifty-three binary digits. -/
theorem units_of_digits {digits shift : Nat} (low : 2 ^ 52 ≤ digits) (high : digits < 2 ^ 53) :
    units (shift * 2 ^ 52 + digits) = digits * 2 ^ shift := by
  have hexponent : (shift * 2 ^ 52 + digits) / 2 ^ 52 = shift + 1 := by omega
  have hfraction : (shift * 2 ^ 52 + digits) % 2 ^ 52 = digits - 2 ^ 52 := by omega
  unfold units
  simp only [Nat.pow_eq]
  rw [hexponent, hfraction, if_neg (Nat.succ_ne_zero _), Nat.add_sub_cancel,
    Nat.add_sub_cancel' low]

theorem log2_mul_two_pow {n : Nat} (h : n ≠ 0) (e : Nat) : (n * 2 ^ e).log2 = n.log2 + e := by
  have hpos : 0 < 2 ^ e := Nat.two_pow_pos e
  obtain ⟨hlow, hhigh⟩ := (Nat.log2_eq_iff h).1 rfl
  refine (Nat.log2_eq_iff (Nat.mul_ne_zero h (Nat.ne_of_gt hpos))).2 ⟨?_, ?_⟩
  · rw [Nat.pow_add]
    exact Nat.mul_le_mul_right _ hlow
  · rw [Nat.add_right_comm, Nat.pow_add]
    exact Nat.mul_lt_mul_of_pos_right hhigh hpos

/-- A magnitude of at most fifty-three binary digits is kept. -/
theorem units_roundedRank {n e : Nat} (nonzero : n ≠ 0) (high : n < 2 ^ 53) (hlow : 52 ≤ e)
    (hhigh : e ≤ 1074) :
    units (roundedRank (n * Nat.pow 2 e) 1) = n * Nat.pow 2 e ∧
      roundedRank (n * Nat.pow 2 e) 1 ≠ infinityRank := by
  simp only [Nat.pow_eq]
  have hlog : n.log2 ≤ 52 := Nat.le_of_lt_succ ((Nat.log2_lt nonzero).2 high)
  obtain ⟨hbelow, habove⟩ := (Nat.log2_eq_iff nonzero).1 rfl
  -- the magnitude is a number of fifty-three digits, shifted
  set digits := n * 2 ^ (52 - n.log2)
  set shift := n.log2 + e - 52
  have hexact : n * 2 ^ e = digits * 2 ^ shift := by
    rw [Nat.mul_assoc, ← Nat.pow_add]
    congr 2
    omega
  have hdigits : 2 ^ 52 ≤ digits ∧ digits < 2 ^ 53 := by
    constructor
    · calc 2 ^ 52 = 2 ^ n.log2 * 2 ^ (52 - n.log2) := by
            rw [← Nat.pow_add, Nat.add_sub_cancel' hlog]
        _ ≤ digits := Nat.mul_le_mul_right _ hbelow
    · calc digits < 2 ^ (n.log2 + 1) * 2 ^ (52 - n.log2) :=
            Nat.mul_lt_mul_of_pos_right habove (Nat.two_pow_pos _)
        _ = 2 ^ 53 := by
            rw [← Nat.pow_add]
            congr 1
            omega
  have hrank : roundedRank (n * 2 ^ e) 1 = min infinityRank (shift * 2 ^ 52 + digits) := by
    unfold roundedRank
    simp only [Nat.pow_eq, Nat.div_one, Nat.one_mul]
    rw [log2_mul_two_pow nonzero, hexact, roundHalfEven_mul (Nat.two_pow_pos _)]
  have hfinite : shift * 2 ^ 52 + digits < infinityRank := by
    have hshift : shift ≤ 1074 := by omega
    unfold infinityRank
    omega
  rw [hrank, Nat.min_eq_right (Nat.le_of_lt hfinite), units_of_digits hdigits.1 hdigits.2]
  exact ⟨hexact.symm, Nat.ne_of_lt hfinite⟩

/-- A natural number of fifty-three binary digits is kept. -/
theorem exists_ofNat {n : Nat} (nonzero : n ≠ 0) (high : n < 2 ^ 53) :
    ∃ rank h, ofNat n = number false rank h ∧ rank ≠ infinityRank ∧
      units rank = n * Nat.pow 2 1074 := by
  unfold ofNat ofQuotient ofUnits
  generalize he : 1074 = e
  obtain ⟨hunits, hfinite⟩ := units_roundedRank nonzero high (e := e) (by omega) (by omega)
  exact ⟨_, _, rfl, hfinite, hunits⟩

theorem ofNat_add_zero {n : Nat} (nonzero : n ≠ 0) (high : n < 2 ^ 53) :
    ofNat n + zero false = ofNat n := by
  obtain ⟨rank, hrank, heq, hfinite, hunits⟩ := exists_ofNat nonzero high
  have hzero : units 0 = 0 := rfl
  have hadd : Binary64.add (number false rank hrank) (zero false) =
      ofUnits false (units rank + units 0) 1 := by
    unfold Binary64.add zero
    dsimp only
    rw [if_neg hfinite, if_neg (by decide), if_pos rfl]
  rw [hunits, hzero, Nat.add_zero] at hadd
  rw [heq]
  exact hadd.trans heq

/-! ## Numbers that are not negative -/

/-- A NaN, or a number without a minus sign. -/
def Unsigned : Binary64 → Prop
  | nan => True
  | number negative _ _ => negative = false

theorem unsigned_ofNat (n : Nat) : Unsigned (ofNat n) := rfl

/-- An operation without minus signs of its own. -/
theorem Unsigned.lift {f : Binary64 → Binary64 → Binary64} (left : ∀ y, f nan y = nan)
    (right : ∀ x, f x nan = nan)
    (numbers : ∀ r₁ h₁ r₂ h₂, (f (number false r₁ h₁) (number false r₂ h₂)).Unsigned)
    {x y : Binary64} (hx : x.Unsigned) (hy : y.Unsigned) : (f x y).Unsigned := by
  rcases x with _ | ⟨s₁, r₁, h₁⟩
  · rw [left]
    trivial
  · rcases y with _ | ⟨s₂, r₂, h₂⟩
    · rw [right]
      trivial
    · obtain rfl : s₁ = false := hx
      obtain rfl : s₂ = false := hy
      exact numbers r₁ h₁ r₂ h₂

theorem Unsigned.add {x y : Binary64} (hx : x.Unsigned) (hy : y.Unsigned) : (x + y).Unsigned := by
  refine Unsigned.lift (f := Binary64.add) (fun _ => rfl) (fun x => by cases x <;> rfl) ?_ hx hy
  intro r₁ h₁ r₂ h₂
  unfold Binary64.add
  dsimp only
  split_ifs <;> trivial

theorem Unsigned.mul {x y : Binary64} (hx : x.Unsigned) (hy : y.Unsigned) : (x * y).Unsigned := by
  refine Unsigned.lift (f := Binary64.mul) (fun _ => rfl) (fun x => by cases x <;> rfl) ?_ hx hy
  intro r₁ h₁ r₂ h₂
  unfold Binary64.mul
  dsimp only
  split_ifs <;> trivial

theorem Unsigned.div {x y : Binary64} (hx : x.Unsigned) (hy : y.Unsigned) : (x / y).Unsigned := by
  refine Unsigned.lift (f := Binary64.div) (fun _ => rfl) (fun x => by cases x <;> rfl) ?_ hx hy
  intro r₁ h₁ r₂ h₂
  unfold Binary64.div
  dsimp only
  split_ifs <;> trivial

/-- What products keep is kept by repeated squaring. -/
theorem powLoop_of_mul {P : Binary64 → Prop} (mul : ∀ {x y : Binary64}, P x → P y → P (x * y))
    {result base : Binary64} {exponent : Nat} (hresult : P result) (hbase : P base) :
    P (powLoop result base exponent) := by
  induction exponent using Nat.strongRecOn generalizing result base with
  | ind exponent ih =>
    have hnext : P (if exponent % 2 = 1 then result * base else result) := by
      split_ifs
      · exact mul hresult hbase
      · exact hresult
    rw [Binary64.powLoop]
    generalize (if exponent % 2 = 1 then result * base else result) = next at hnext ⊢
    split_ifs with hone
    · exact hnext
    · exact ih (exponent / 2) (by omega) hnext (mul hbase hbase)

theorem Unsigned.pow {base : Binary64} (h : base.Unsigned) (exponent : Nat) :
    (base.pow exponent).Unsigned :=
  powLoop_of_mul Unsigned.mul (unsigned_ofNat 1) h

/-- Numbers with a minus sign are less than a number without one that is not zero. -/
theorem lt_of_unsigned {rank : Nat} {h : rank ≤ infinityRank} {y : Binary64} (hy : y.Unsigned)
    (finite : y.isFinite) (nonzero : y.isZero = false) : (number true rank h).lt y := by
  rcases y with _ | ⟨s, r, hr⟩
  · cases finite
  · obtain rfl : s = false := hy
    have hne : r ≠ 0 := by simpa [isZero] using nonzero
    simp [lt, hne]

/-- A number that is not less than one has no minus sign. -/
theorem unsigned_of_not_lt_one {x : Binary64} (h : ¬x.lt 1) : x.Unsigned := by
  rcases x with _ | ⟨_ | _, rank, hrank⟩
  · trivial
  · rfl
  · exact absurd (lt_of_unsigned (unsigned_ofNat 1) (by decide +kernel) (by decide +kernel)) h

end Binary64

/-! ## Durations of seconds -/

namespace Duration

open Binary64

theorem unsigned_toSeconds (d : Duration) : d.toSeconds.Unsigned :=
  (unsigned_ofNat _).add ((unsigned_ofNat _).div (unsigned_ofNat _))

/-- The nanoseconds nearest to the seconds of a rank. -/
def nanosOfRank (rank : Nat) : Nat :=
  roundHalfEven (units rank * nanosPerSecond) (Nat.pow 2 1074)

theorem nanosOfRank_mono : Monotone nanosOfRank := fun _ _ h =>
  roundHalfEven_mono (Nat.mul_le_mul_right _ (units_mono h))

theorem nanosOfRank_zero : nanosOfRank 0 = 0 := by decide +kernel

/-- Seconds that have a duration have that of their rank, and a minus sign only before zero. -/
theorem ofFloatSeconds?_eq_some_iff {negative : Bool} {rank : Nat} {h : rank ≤ infinityRank}
    {d : Duration} : ofFloatSeconds? (.number negative rank h) = some d ↔
      (negative → rank = 0) ∧ rank ≠ infinityRank ∧ d.nanos = nanosOfRank rank := by
  by_cases hzero : rank = 0
  · subst hzero
    have hfinite : 0 ≠ infinityRank := by decide
    rw [ofFloatSeconds?, if_pos rfl, nanosOfRank_zero, Option.some_inj]
    constructor
    · rintro rfl
      exact ⟨fun _ => rfl, hfinite, rfl⟩
    · rintro ⟨-, -, hd⟩
      cases d
      cases hd
      rfl
  · rw [ofFloatSeconds?, if_neg hzero]
    split_ifs with hbad
    · simp only [false_iff]
      rintro ⟨hsign, hfinite, -⟩
      exact hbad.elim (fun hnegative => hzero (hsign hnegative)) hfinite
    · rw [not_or] at hbad
      constructor
      · intro hd
        exact ⟨fun hnegative => absurd hnegative hbad.1, hbad.2, nanos_of_ofNanos? hd⟩
      · rintro ⟨-, -, hd⟩
        show ofNanos? (nanosOfRank rank) = some d
        rw [← hd, ofNanos?_nanos]

/-- The smaller of two numbers of seconds has the shorter duration. -/
theorem le_of_ofFloatSeconds?_minimum {x y : Binary64} {d longest : Duration}
    (hd : ofFloatSeconds? (x.minimum y) = some d) (hy : ofFloatSeconds? y = some longest) :
    d ≤ longest := by
  have hsame (heq : x.minimum y = y) : d ≤ longest := by
    rw [heq, hy] at hd
    exact Nat.le_of_eq (congrArg nanos (Option.some.inj hd).symm)
  rcases x with _ | ⟨s₁, r₁, h₁⟩
  · exact hsame rfl
  · rcases y with _ | ⟨s₂, r₂, h₂⟩
    · cases hy
    · have hle (heq : (number s₁ r₁ h₁).minimum (number s₂ r₂ h₂) = number s₁ r₁ h₁)
          (hr : s₁ = false → r₁ ≤ r₂) : d ≤ longest := by
        rw [heq, ofFloatSeconds?_eq_some_iff] at hd
        rw [ofFloatSeconds?_eq_some_iff] at hy
        show d.nanos ≤ longest.nanos
        rw [hd.2.2, hy.2.2]
        refine nanosOfRank_mono ?_
        cases s₁ with
        | false => exact hr rfl
        | true => exact hd.1 rfl ▸ Nat.zero_le r₂
      cases s₁ <;> cases s₂
      · by_cases hlt : r₂ < r₁
        · exact hsame (if_pos hlt)
        · exact hle (if_neg hlt) fun _ => Nat.le_of_not_lt hlt
      · exact hsame rfl
      · exact hle rfl fun h => by cases h
      · by_cases hlt : r₁ < r₂
        · exact hsame (if_pos hlt)
        · exact hle (if_neg hlt) fun h => by cases h

theorem exists_nanos {n : Nat} (h : n < limit) : ∃ d : Duration, d.nanos = n := ⟨⟨n, h⟩, rfl⟩

/-- Fewer seconds are a shorter duration. -/
theorem exists_ofFloatSeconds?_of_le {rank rank' : Nat} {h : rank ≤ infinityRank}
    {h' : rank' ≤ infinityRank} {d : Duration} (le : rank ≤ rank')
    (hd : ofFloatSeconds? (number false rank' h') = some d) :
    ∃ e ≤ d, ofFloatSeconds? (number false rank h) = some e := by
  obtain ⟨-, hfinite, hnanos⟩ := ofFloatSeconds?_eq_some_iff.1 hd
  have hle : nanosOfRank rank ≤ d.nanos :=
    (nanosOfRank_mono le).trans_eq hnanos.symm
  obtain ⟨e, he⟩ := exists_nanos (Nat.lt_of_le_of_lt hle d.nanos_lt)
  refine ⟨e, he.trans_le hle, ofFloatSeconds?_eq_some_iff.2 ⟨nofun, ?_, he⟩⟩
  exact fun h => hfinite (Nat.le_antisymm h' (h ▸ le))

/-- The smaller of two numbers of seconds has a duration, if the one has no minus sign and the other
has a duration. -/
theorem exists_ofFloatSeconds?_minimum {x y : Binary64} {longest : Duration} (hx : x.Unsigned)
    (hy : ofFloatSeconds? y = some longest) : ∃ d, ofFloatSeconds? (x.minimum y) = some d := by
  have hsame (heq : x.minimum y = y) : ∃ d, ofFloatSeconds? (x.minimum y) = some d :=
    ⟨longest, heq.symm ▸ hy⟩
  rcases x with _ | ⟨s₁, r₁, h₁⟩
  · exact hsame rfl
  · obtain rfl : s₁ = false := hx
    rcases y with _ | ⟨s₂, r₂, h₂⟩
    · cases hy
    · cases s₂
      · by_cases hlt : r₂ < r₁
        · exact hsame (if_pos hlt)
        · rw [show (number false r₁ h₁).minimum (number false r₂ h₂) = number false r₁ h₁ from
            if_neg hlt]
          obtain ⟨d, -, hd⟩ := exists_ofFloatSeconds?_of_le (Nat.le_of_not_lt hlt) hy
          exact ⟨d, hd⟩
      · exact hsame rfl

/-- Whole seconds are kept, as long as they have fifty-three binary digits. -/
theorem ofFloatSeconds?_toSeconds {d : Duration} {n : Nat} (whole : d.nanos = n * nanosPerSecond)
    (high : n < 2 ^ 53) : ofFloatSeconds? d.toSeconds = some d := by
  have hseconds : d.seconds = n := by
    rw [seconds, whole]
    exact Nat.mul_div_cancel n (by decide)
  have hrest : d.subsecNanos = 0 := by
    rw [subsecNanos, whole]
    exact Nat.mul_mod_left n _
  have hzero : ofNat 0 / ofNat nanosPerSecond = Binary64.zero false := by decide +kernel
  rw [toSeconds, hseconds, hrest, hzero]
  by_cases nonzero : n = 0
  · rw [nonzero, Nat.zero_mul] at whole
    have hsum : ofNat 0 + Binary64.zero false = number false 0 (Nat.zero_le _) := by decide +kernel
    rw [nonzero, hsum, ofFloatSeconds?_eq_some_iff, nanosOfRank_zero]
    exact ⟨fun _ => rfl, by decide, whole⟩
  · rw [ofNat_add_zero nonzero high]
    obtain ⟨rank, hrank, heq, hfinite, hunits⟩ := exists_ofNat nonzero high
    rw [heq, ofFloatSeconds?_eq_some_iff, nanosOfRank, hunits, whole, Nat.mul_right_comm,
      roundHalfEven_mul (by decide +kernel)]
    exact ⟨fun h => (Bool.false_ne_true h).elim, hfinite, rfl⟩

end Duration

/-! ## Delays -/

namespace Backoff

/-- The longest delay that seconds as floating-point numbers allow for. -/
def longestDelay? (b : Backoff) : Option Duration :=
  Duration.ofFloatSeconds? b.maxDelay.toSeconds

variable {b : Backoff} {failures : Nat} {delay longest : Duration}

/-- No delay is longer than the longest one. -/
theorem delay_le_longest (hdelay : b.delayFor? failures = some delay)
    (hlongest : b.longestDelay? = some longest) : delay ≤ longest :=
  Duration.le_of_ofFloatSeconds?_minimum hdelay hlongest

/-- A longest delay of whole seconds is kept. -/
theorem longestDelay?_of_whole {n : Nat} (whole : b.maxDelay.nanos = n * nanosPerSecond)
    (high : n < 2 ^ 53) : b.longestDelay? = some b.maxDelay :=
  Duration.ofFloatSeconds?_toSeconds whole high

example : Backoff.standard.longestDelay? = some Backoff.standard.maxDelay := by decide +kernel

theorem unsigned_multiplier (valid : b.violation? = none) : b.multiplier.Unsigned := by
  refine Binary64.unsigned_of_not_lt_one fun hlt => ?_
  rw [violation?, if_pos (.inl hlt)] at valid
  cases valid

/-- If the longest delay of valid settings is a duration, every retry has a delay. -/
theorem exists_delay (valid : b.violation? = none) (hlongest : b.longestDelay? = some longest)
    (failures : Nat) : ∃ delay, b.delayFor? failures = some delay :=
  Duration.exists_ofFloatSeconds?_minimum
    (b.initialDelay.unsigned_toSeconds.mul ((unsigned_multiplier valid).pow _)) hlongest

end Backoff

end ClusterVitals
