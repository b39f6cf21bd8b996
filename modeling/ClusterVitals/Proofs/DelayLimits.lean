import ClusterVitals.Config.Basic
import ClusterVitals.Proofs.RoundingError

/-!
# What bounds the delay of a retry

A delay is the smaller one of two: the delay that has grown with the failures, and the longest one
of the settings. Both are seconds in floating point on the way. So the longest delay holds as far as
it survives that, which it does below `2 ^ 23` seconds, and there is no delay at all if neither of
the two is a duration any more. A grown delay without a beginning is zero until its factor is
infinite; from then on it has no value, and the longest delay counts alone.

## Shape of the proofs

The seconds of a duration are a rank (`toSeconds_eq`) that grows with the whole seconds. What is close
to the end of all durations is found by this and a few known ranks (`last_seconds`); that durations
below `2 ^ 23` seconds come back needs the two errors of rounding, which add up to less than half a
nanosecond.
-/

namespace ClusterVitals

open Binary64

/-! ## Durations in seconds -/

namespace Duration

/-- The rank of a whole number. -/
def wholeRank (n : Nat) : Nat := roundedRank (n * Nat.pow 2 1074) 1

/-- The rank of nanoseconds, as a part of a second. -/
def partRank (nanos : Nat) : Nat :=
  roundedRank (units (wholeRank nanos) * Nat.pow 2 1074) (units (wholeRank nanosPerSecond))

/-- The rank of a duration in seconds. -/
def rank (d : Duration) : Nat :=
  roundedRank (units (wholeRank d.seconds) + units (partRank d.subsecNanos)) 1

/-- The rank of `2 ^ 64`. -/
def endRank : Nat := 1087 * Nat.pow 2 52

/-! All bounds here rest on the ranks of a few numbers of seconds. -/

theorem no_seconds : units (wholeRank 0) = 0 ∧ zero.toSeconds = Binary64.zero false := by
  decide +kernel

theorem one_second : 0 < wholeRank nanosPerSecond ∧ wholeRank nanosPerSecond < infinityRank ∧
    0 < units (wholeRank nanosPerSecond) ∧ partRank nanosPerSecond = oneRank := by
  decide +kernel

/-- The end of all durations is not passed by a part of a second. It is reached from the last 1024
seconds, and not from the second before them. -/
theorem last_seconds : wholeRank (Nat.pow 2 64) = endRank ∧
    roundedRank (units endRank + units oneRank) 1 = endRank ∧
    roundedRank (units (wholeRank (Nat.pow 2 64 - 1024)) + 0) 1 = endRank ∧
    roundedRank (units (wholeRank (Nat.pow 2 64 - 1025)) + units oneRank) 1 = endRank - 1 ∧
    nanosOfRank endRank = limit ∧ nanosOfRank (endRank - 1) < limit := by
  decide +kernel

theorem seconds_lt (d : Duration) : d.seconds < Nat.pow 2 64 :=
  Nat.div_lt_of_lt_mul (Nat.mul_comm (Nat.pow 2 64) nanosPerSecond ▸ d.nanos_lt)

theorem subsecNanos_lt (d : Duration) : d.subsecNanos < nanosPerSecond :=
  Nat.mod_lt _ (by decide)

theorem wholeRank_mono : Monotone wholeRank := fun _ _ h =>
  roundedRank_mono (by decide) (Nat.mul_le_mul_right _ h)

theorem partRank_mono : Monotone partRank := fun _ _ h =>
  roundedRank_mono one_second.2.2.1
    (Nat.mul_le_mul_right _ (units_mono (wholeRank_mono h)))

theorem wholeRank_le (d : Duration) : wholeRank d.seconds ≤ endRank :=
  calc wholeRank d.seconds ≤ wholeRank (Nat.pow 2 64) :=
        wholeRank_mono (Nat.le_of_lt d.seconds_lt)
    _ = endRank := last_seconds.1

theorem partRank_le (d : Duration) : partRank d.subsecNanos ≤ oneRank :=
  calc partRank d.subsecNanos ≤ partRank nanosPerSecond :=
        partRank_mono (Nat.le_of_lt d.subsecNanos_lt)
    _ = oneRank := one_second.2.2.2

theorem rank_le (d : Duration) : d.rank ≤ endRank :=
  calc d.rank ≤ roundedRank (units endRank + units oneRank) 1 :=
        roundedRank_mono (by decide) (Nat.add_le_add (units_mono d.wholeRank_le)
          (units_mono d.partRank_le))
    _ = endRank := last_seconds.2.1

theorem toSeconds_eq (d : Duration) : ∃ h, d.toSeconds = number false d.rank h := by
  have hpart : ∃ h, ofNat d.subsecNanos / ofNat nanosPerSecond =
      number false (partRank d.subsecNanos) h := by
    obtain ⟨hpos, hsecond, -⟩ := one_second
    have hfinite : wholeRank d.subsecNanos ≠ infinityRank :=
      Nat.ne_of_lt (Nat.lt_of_le_of_lt (wholeRank_mono (Nat.le_of_lt d.subsecNanos_lt)) hsecond)
    refine ⟨Nat.min_le_left .., ?_⟩
    show Binary64.div (number false (wholeRank d.subsecNanos) _)
      (number false (wholeRank nanosPerSecond) _) = _
    unfold Binary64.div
    dsimp only
    rw [if_neg hfinite, if_neg (Nat.ne_of_lt hsecond), if_neg (Nat.ne_of_gt hpos)]
    rfl
  obtain ⟨hpart, heq⟩ := hpart
  have hwhole : wholeRank d.seconds ≠ infinityRank :=
    Nat.ne_of_lt (Nat.lt_of_le_of_lt d.wholeRank_le (by decide))
  have hrest : partRank d.subsecNanos ≠ infinityRank :=
    Nat.ne_of_lt (Nat.lt_of_le_of_lt d.partRank_le (by decide))
  refine ⟨Nat.min_le_left .., ?_⟩
  rw [toSeconds, heq]
  show Binary64.add (number false (wholeRank d.seconds) _) _ = _
  unfold Binary64.add
  dsimp only
  rw [if_neg hwhole, if_neg hrest, if_pos rfl]
  rfl

/-- The seconds of a duration are a duration again, unless it is within 1024 seconds of the end. -/
theorem ofFloatSeconds?_toSeconds_eq_none_iff {d : Duration} :
    ofFloatSeconds? d.toSeconds = none ↔ Nat.pow 2 64 - 1024 ≤ d.seconds := by
  obtain ⟨-, -, hnear, hfar, hlimit, hbelow⟩ := last_seconds
  obtain ⟨hrank, heq⟩ := d.toSeconds_eq
  have hfinite : d.rank ≠ infinityRank :=
    Nat.ne_of_lt (Nat.lt_of_le_of_lt d.rank_le (by decide))
  have hnone : ofFloatSeconds? d.toSeconds = none ↔ limit ≤ nanosOfRank d.rank := by
    rw [heq, Option.eq_none_iff_forall_ne_some]
    constructor
    · intro h
      by_contra hlt
      obtain ⟨found, hfound⟩ := exists_nanos (Nat.not_le.1 hlt)
      exact h found (ofFloatSeconds?_eq_some_iff.2 ⟨nofun, hfinite, hfound⟩)
    · intro h found hfound
      have hlt := found.nanos_lt
      rw [(ofFloatSeconds?_eq_some_iff.1 hfound).2.2] at hlt
      exact Nat.not_le.2 hlt h
  rw [hnone]
  constructor
  · intro h
    by_contra hlt
    have hlt : d.seconds ≤ Nat.pow 2 64 - 1025 := by omega
    -- the whole seconds stay below the end, and the nanoseconds do not take them there
    have hrank : d.rank ≤ endRank - 1 :=
      calc d.rank ≤ roundedRank (units (wholeRank (Nat.pow 2 64 - 1025)) + units oneRank) 1 :=
            roundedRank_mono (by decide) (Nat.add_le_add (units_mono (wholeRank_mono hlt))
              (units_mono d.partRank_le))
        _ = endRank - 1 := hfar
    exact Nat.not_le.2 (Nat.lt_of_le_of_lt (nanosOfRank_mono hrank) hbelow) h
  · intro h
    have hrank : endRank ≤ d.rank :=
      calc endRank = roundedRank (units (wholeRank (Nat.pow 2 64 - 1024)) + 0) 1 := hnear.symm
        _ ≤ d.rank :=
            roundedRank_mono (by decide) (Nat.add_le_add (units_mono (wholeRank_mono h))
              (Nat.zero_le _))
    calc limit = nanosOfRank endRank := hlimit.symm
      _ ≤ nanosOfRank d.rank := nanosOfRank_mono hrank

theorem units_wholeRank {n : Nat} (high : n < 2 ^ 53) :
    units (wholeRank n) = n * Nat.pow 2 1074 := by
  by_cases hzero : n = 0
  · subst hzero
    exact Eq.trans no_seconds.1 (Eq.symm (Nat.zero_mul (Nat.pow 2 1074)))
  · obtain ⟨rank, hrank, heq, -, hunits⟩ := exists_ofNat hzero high
    have hsame : number false (wholeRank n) (Nat.min_le_left ..) = number false rank hrank := heq
    rw [(Binary64.number.inj hsame).2, hunits]

theorem two_pow_split {e m n : Nat} (h : e = m + n) : Nat.pow 2 e = 2 ^ m * 2 ^ n := by
  rw [h]
  exact Nat.pow_add 2 m n

/-- The part of a second is off by half of `2 ^ (-53)` seconds at most. -/
theorem partRank_near {nanos : Nat} (h : nanos < nanosPerSecond) :
    2 * (units (partRank nanos) * nanosPerSecond) ≤
        2 * (nanos * Nat.pow 2 1074) + 2 ^ 1021 * nanosPerSecond ∧
      2 * (nanos * Nat.pow 2 1074) ≤
        2 * (units (partRank nanos) * nanosPerSecond) + 2 ^ 1021 * nanosPerSecond := by
  have hwhole : units (wholeRank nanos) = nanos * Nat.pow 2 1074 :=
    units_wholeRank (Nat.lt_trans h (by decide))
  have hsecond : units (wholeRank nanosPerSecond) = nanosPerSecond * Nat.pow 2 1074 :=
    units_wholeRank (by decide)
  unfold partRank
  rw [hwhole, hsecond]
  generalize he : 1074 = e
  have hunit := two_pow_split (show e = 53 + 1021 by omega)
  have hpos : 0 < Nat.pow 2 e := Nat.two_pow_pos e
  generalize Nat.pow 2 e = unit at hunit hpos ⊢
  have hbelow : nanos * unit * unit < 2 ^ (53 + 1021) * (nanosPerSecond * unit) := by
    rw [pow_add, ← hunit, Nat.mul_right_comm, Nat.mul_comm unit]
    exact Nat.mul_lt_mul_of_pos_right (Nat.mul_lt_mul_of_pos_right h hpos) hpos
  obtain ⟨hhigh, hlow, -⟩ := roundedRank_half (Nat.mul_pos (by decide) hpos) hbelow (by decide)
  generalize units (roundedRank (nanos * unit * unit) (nanosPerSecond * unit)) = found at *
  generalize 2 ^ 1021 = step at *
  constructor
  · refine Nat.le_of_mul_le_mul_right ?_ hpos
    calc 2 * (found * nanosPerSecond) * unit = 2 * (found * (nanosPerSecond * unit)) := by ring
      _ ≤ 2 * (nanos * unit * unit) + step * (nanosPerSecond * unit) := hhigh
      _ = (2 * (nanos * unit) + step * nanosPerSecond) * unit := by ring
  · refine Nat.le_of_mul_le_mul_right ?_ hpos
    calc 2 * (nanos * unit) * unit = 2 * (nanos * unit * unit) := by ring
      _ ≤ 2 * (found * (nanosPerSecond * unit)) + step * (nanosPerSecond * unit) := hlow
      _ = (2 * (found * nanosPerSecond) + step * nanosPerSecond) * unit := by ring

/-- Below `2 ^ 23` seconds, the seconds of a duration are off by less than half a nanosecond. -/
theorem rank_near {d : Duration} (short : d.seconds < 2 ^ 23) :
    2 * (units d.rank * nanosPerSecond) < 2 * (d.nanos * Nat.pow 2 1074) + Nat.pow 2 1074 ∧
      2 * (d.nanos * Nat.pow 2 1074) < 2 * (units d.rank * nanosPerSecond) + Nat.pow 2 1074 := by
  have hwhole : units (wholeRank d.seconds) = d.seconds * Nat.pow 2 1074 :=
    units_wholeRank (Nat.lt_trans short (by decide))
  have hnanos : d.nanos = d.seconds * nanosPerSecond + d.subsecNanos :=
    (Nat.div_add_mod' d.nanos nanosPerSecond).symm
  obtain ⟨hhigh, hlow⟩ := partRank_near d.subsecNanos_lt
  have hrest := d.subsecNanos_lt
  unfold rank
  rw [hwhole]
  -- all magnitudes are counted in the errors of the part of a second
  generalize he : 1074 = e at *
  have hunit := two_pow_split (show e = 53 + 1021 by omega)
  have hstep : 2 ^ (23 + 1021) = 2 ^ 23 * 2 ^ 1021 := pow_add 2 23 1021
  have hpos : 0 < 2 ^ 1021 := pow_pos two_pos 1021
  have hround (below : d.seconds * Nat.pow 2 e + units (partRank d.subsecNanos) <
      2 ^ (53 + (23 + 1021)) * 1) := roundedRank_half (by decide) below (by decide)
  rw [pow_add 2 53, hstep, hunit] at hround
  rw [hunit] at hhigh hlow ⊢
  generalize 2 ^ 1021 = step at *
  generalize units (partRank d.subsecNanos) = part at *
  generalize units (roundedRank (d.seconds * (2 ^ 53 * step) + part) 1) = found at *
  have hseconds : d.seconds * step + step ≤ 2 ^ 23 * step :=
    Nat.succ_mul _ _ ▸ Nat.mul_le_mul_right step short
  have hrest : d.subsecNanos * step + step ≤ nanosPerSecond * step :=
    Nat.succ_mul _ _ ▸ Nat.mul_le_mul_right step hrest
  have hsum : d.nanos * (2 ^ 53 * step) =
      2 ^ 53 * (nanosPerSecond * (d.seconds * step)) + 2 ^ 53 * (d.subsecNanos * step) := by
    rw [hnanos]
    ring
  rw [Nat.mul_left_comm d.subsecNanos] at hhigh hlow
  rw [Nat.mul_left_comm d.seconds] at hround
  rw [hsum]
  unfold nanosPerSecond at *
  generalize d.seconds * step = seconds at *
  generalize d.subsecNanos * step = rest at *
  obtain ⟨habove, hbelow, -⟩ := hround (by omega)
  omega

/-- Durations below `2 ^ 23` seconds come back from floating point as they were. -/
theorem ofFloatSeconds?_toSeconds_of_lt {d : Duration} (short : d.seconds < 2 ^ 23) :
    ofFloatSeconds? d.toSeconds = some d := by
  obtain ⟨hrank, heq⟩ := d.toSeconds_eq
  have hfinite : d.rank ≠ infinityRank :=
    Nat.ne_of_lt (Nat.lt_of_le_of_lt d.rank_le (by decide))
  obtain ⟨hhigh, hlow⟩ := rank_near short
  rw [heq, ofFloatSeconds?_eq_some_iff]
  exact ⟨nofun, hfinite, (roundHalfEven_eq hhigh hlow).symm⟩

/-! ## The shorter one of two durations -/

/-- The smaller of two numbers of seconds is a duration up to a bound exactly if one of them is. -/
theorem exists_minimum_le_iff {x : Binary64} (hx : x.Unsigned) {rank : Nat}
    {h : rank ≤ infinityRank} {bound : Duration} :
    (∃ d ≤ bound, ofFloatSeconds? (x.minimum (number false rank h)) = some d) ↔
      ∃ d ≤ bound, ofFloatSeconds? x = some d ∨
        ofFloatSeconds? (number false rank h) = some d := by
  rcases x with _ | ⟨s, r, hr⟩
  · have hnan : ofFloatSeconds? nan = none := rfl
    simp [Binary64.minimum, hnan]
  · obtain rfl : s = false := hx
    by_cases hlt : rank < r
    · rw [show (number false r hr).minimum (number false rank h) = number false rank h from
        if_pos hlt]
      refine ⟨Exists.imp fun _ => And.imp_right .inr, ?_⟩
      rintro ⟨d, hle, hd | hd⟩
      · obtain ⟨e, hshorter, he⟩ := exists_ofFloatSeconds?_of_le (Nat.le_of_lt hlt) hd
        exact ⟨e, Nat.le_trans hshorter hle, he⟩
      · exact ⟨d, hle, hd⟩
    · rw [show (number false r hr).minimum (number false rank h) = number false r hr from
        if_neg hlt]
      refine ⟨Exists.imp fun _ => And.imp_right .inl, ?_⟩
      rintro ⟨d, hle, hd | hd⟩
      · exact ⟨d, hle, hd⟩
      · obtain ⟨e, hshorter, he⟩ := exists_ofFloatSeconds?_of_le (Nat.not_lt.1 hlt) hd
        exact ⟨e, Nat.le_trans hshorter hle, he⟩

theorem le_longest (d : Duration) : d ≤ longest := Nat.le_sub_one_of_lt d.nanos_lt

end Duration

/-! ## Delays -/

namespace Backoff

variable (b : Backoff) (failures : Nat)

/-- The factor by which the delay has grown after a number of failures. -/
def factor : Binary64 := b.multiplier.pow (min failures largestExponent)

/-- The delay that has grown with the failures, if its seconds are those of a duration. -/
def grownDelay? : Option Duration :=
  Duration.ofFloatSeconds? (b.initialDelay.toSeconds * b.factor failures)

/-- What valid settings give for a retry. -/
structure DelayLaw : Prop where
  /-- A delay keeps to a bound exactly if the grown delay or the longest one does, both as they come
  out of floating point. -/
  bounded_iff : ∀ bound, (∃ delay ≤ bound, b.delayFor? failures = some delay) ↔
    ∃ delay ≤ bound, b.grownDelay? failures = some delay ∨ b.longestDelay? = some delay
  /-- There is no delay exactly if the grown one is no duration and the longest one is within 1024
  seconds of the end of all durations. -/
  missing_iff : b.delayFor? failures = none ↔
    b.grownDelay? failures = none ∧ Nat.pow 2 64 - 1024 ≤ b.maxDelay.seconds
  /-- A longest delay below `2 ^ 23` seconds is kept, and one of whole seconds below `2 ^ 53`. -/
  longest_kept : b.maxDelay.seconds < 2 ^ 23 ∨
      (nanosPerSecond ∣ b.maxDelay.nanos ∧ b.maxDelay.seconds < 2 ^ 53) →
    b.longestDelay? = some b.maxDelay
  /-- A delay that starts at zero stays zero exactly as long as its factor is finite, or if no other
  delay is allowed. -/
  zero_iff : b.initialDelay = .zero → (b.delayFor? failures = some .zero ↔
    b.factor failures ≠ .infinity false ∨ b.maxDelay = .zero)
  /-- So there is a delay, not longer than the longest one and zero if it starts at zero, exactly
  under these two conditions. -/
  sound_iff : (∃ delay ≤ b.maxDelay, b.delayFor? failures = some delay ∧
      (b.initialDelay = .zero → delay = .zero)) ↔
    (∃ delay ≤ b.maxDelay, b.grownDelay? failures = some delay ∨
      b.longestDelay? = some delay) ∧
    (b.initialDelay = .zero → b.factor failures ≠ .infinity false ∨ b.maxDelay = .zero)

section

variable {b : Backoff} {failures : Nat}

theorem bounded_iff (valid : b.violation? = none) (bound : Duration) :
    (∃ delay ≤ bound, b.delayFor? failures = some delay) ↔
      ∃ delay ≤ bound, b.grownDelay? failures = some delay ∨ b.longestDelay? = some delay := by
  have hgrown : (b.initialDelay.toSeconds * b.factor failures).Unsigned :=
    b.initialDelay.unsigned_toSeconds.mul ((unsigned_multiplier valid).pow _)
  obtain ⟨hrank, heq⟩ := b.maxDelay.toSeconds_eq
  rw [delayFor?, delaySeconds, grownDelay?, longestDelay?, heq]
  exact Duration.exists_minimum_le_iff hgrown

theorem missing_iff (valid : b.violation? = none) : b.delayFor? failures = none ↔
    b.grownDelay? failures = none ∧ Nat.pow 2 64 - 1024 ≤ b.maxDelay.seconds := by
  have hsome : (∃ delay ≤ .longest, b.delayFor? failures = some delay) ↔ _ :=
    bounded_iff valid .longest
  simp only [Duration.le_longest, true_and, exists_or] at hsome
  rw [← Duration.ofFloatSeconds?_toSeconds_eq_none_iff, ← longestDelay?]
  simp only [Option.eq_none_iff_forall_ne_some, ne_eq, ← not_exists]
  rw [hsome, not_or]

theorem longest_kept (h : b.maxDelay.seconds < 2 ^ 23 ∨
    (nanosPerSecond ∣ b.maxDelay.nanos ∧ b.maxDelay.seconds < 2 ^ 53)) :
    b.longestDelay? = some b.maxDelay := by
  rcases h with hshort | ⟨⟨n, hn⟩, hseconds⟩
  · exact Duration.ofFloatSeconds?_toSeconds_of_lt hshort
  · refine longestDelay?_of_whole (hn.trans (Nat.mul_comm _ _)) ?_
    rwa [Duration.seconds, hn, Nat.mul_div_cancel_left n (by decide)] at hseconds

/-- Zero is the longest delay only if no other one is allowed. -/
theorem longestDelay?_eq_zero_iff : b.longestDelay? = some .zero ↔ b.maxDelay = .zero := by
  by_cases hshort : b.maxDelay.seconds < 2 ^ 23
  · rw [longest_kept (.inl hshort), Option.some_inj]
  · have hlong : Nat.pow 2 23 ≤ b.maxDelay.seconds := Nat.not_lt.1 hshort
    refine ⟨fun h => ?_, fun h => absurd (h ▸ by decide) hshort⟩
    obtain ⟨hrank, heq⟩ := b.maxDelay.toSeconds_eq
    rw [longestDelay?, heq, Duration.ofFloatSeconds?_eq_some_iff] at h
    have hle : roundedRank (units (Duration.wholeRank (Nat.pow 2 23)) + 0) 1 ≤ b.maxDelay.rank :=
      roundedRank_mono (by decide) (Nat.add_le_add (units_mono (Duration.wholeRank_mono hlong))
        (Nat.zero_le _))
    have hpos : 0 < Duration.nanosOfRank b.maxDelay.rank :=
      Nat.lt_of_lt_of_le (by decide +kernel) (Duration.nanosOfRank_mono hle)
    exact absurd h.2.2 (Nat.ne_of_lt hpos)

/-- A delay that starts at zero is zero as long as its factor is finite, and then the longest one. -/
theorem delayFor?_of_zero (valid : b.violation? = none) (start : b.initialDelay = .zero) :
    b.delayFor? failures =
      if b.factor failures = .infinity false then b.longestDelay? else some .zero := by
  have hmultiplier : b.multiplier.AtLeastOne := by
    unfold violation? at valid
    split at valid
    · cases valid
    · rename_i h
      rw [not_or, not_not] at h
      exact atLeastOne_of_not_lt h.1 h.2
  obtain ⟨factor, hrank, hfactor, hone⟩ := hmultiplier.pow (min failures largestExponent)
  obtain ⟨hend, heq⟩ := b.maxDelay.toSeconds_eq
  rw [delayFor?, delaySeconds, longestDelay?, start, Duration.no_seconds.2, heq,
    Backoff.factor, hfactor, zero_mul_number]
  simp only [infinity, number.injEq, true_and]
  split
  · rfl
  · rw [zero_minimum]
    rfl

theorem zero_iff (valid : b.violation? = none) (start : b.initialDelay = .zero) :
    b.delayFor? failures = some .zero ↔
      b.factor failures ≠ .infinity false ∨ b.maxDelay = .zero := by
  rw [delayFor?_of_zero valid start]
  split
  · rename_i h
    simp [h, longestDelay?_eq_zero_iff]
  · rename_i h
    simp [h]

/-- Under valid settings, floating point alone decides which retries have a delay, and how long. -/
theorem delay_law (valid : b.violation? = none) : b.DelayLaw failures where
  bounded_iff := bounded_iff valid
  missing_iff := missing_iff valid
  longest_kept := longest_kept
  zero_iff := zero_iff valid
  sound_iff := by
    rw [← bounded_iff valid]
    by_cases start : b.initialDelay = .zero
    · rw [← zero_iff valid start]
      simp only [start, forall_const]
      constructor
      · rintro ⟨delay, hle, hdelay, rfl⟩
        exact ⟨⟨.zero, hle, hdelay⟩, hdelay⟩
      · rintro ⟨-, hdelay⟩
        exact ⟨.zero, Nat.zero_le _, hdelay, rfl⟩
    · simp only [start, false_implies, and_true]

theorem delay_law_standard :
    Backoff.standard.violation? = none ∧ DelayLaw .standard 7 :=
  ⟨by decide +kernel, delay_law (by decide +kernel)⟩

end

/-- Retries are immediate. -/
def immediate : Backoff := { Backoff.standard with initialDelay := .zero }

/-- Retries are immediate, and could be delayed as long as anything can be told. -/
def unlimited : Backoff := ⟨.zero, .longest, 2⟩

/-- Retries are delayed by a number of seconds that is not a floating-point one. -/
def uneven : Backoff where
  initialDelay := ⟨9007199254740995 * nanosPerSecond, by decide⟩
  maxDelay := ⟨9007199254740995 * nanosPerSecond, by decide⟩
  multiplier := 2

/-- Settings can be valid, and still an immediate retry comes to be delayed, there is no delay at
all, or it is longer than the longest one. -/
theorem limits_missed :
    (immediate.violation? = none ∧ immediate.delayFor? 1023 = some .zero ∧
      immediate.delayFor? 1024 = some immediate.maxDelay) ∧
    (unlimited.violation? = none ∧ unlimited.delayFor? 1023 = some .zero ∧
      unlimited.delayFor? 1024 = none) ∧
    (uneven.violation? = none ∧ ∃ delay, uneven.delayFor? 0 = some delay ∧
      ¬ delay ≤ uneven.maxDelay) := by
  refine ⟨⟨?_, ?_, ?_⟩, ⟨?_, ?_, ?_⟩, ?_, ⟨9007199254740996 * nanosPerSecond, by decide⟩, ?_, ?_⟩
  all_goals decide +kernel

end Backoff

end ClusterVitals
