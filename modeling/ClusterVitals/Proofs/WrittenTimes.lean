import ClusterVitals.Certificate.Time
import ClusterVitals.Proofs.TextLines

/-!
# Times as certificates write them

A time is written in UTC, either as a `UTCTime` with two digits for the year or as a
`GeneralizedTime` with four. Both are read back as the instant that was written.

The instant of a date and time of day is the number of seconds from the start of 1970. That is no
matter of the formula: each second counts one more than the second before it in the calendar
(`Clock.unixSeconds_next`), and the count begins with the start of 1970.

## Shape of the proofs

The calendar is followed from one day to the next. Within a month and within a year the days before
a month settle it; at the end of a year it is the number of its days, by whether it is a leap year.
Each pair of digits is read back by one lemma, so both forms are read part by part.
-/

namespace ClusterVitals

/-! ## The calendar -/

theorem daysBeforeYear_succ (year : Int) :
    daysBeforeYear (year + 1) = daysBeforeYear year + 365 + (isLeapYear year).toNat := by
  simp only [daysBeforeYear, isLeapYear]
  by_cases h4 : year % 4 = 0 <;> by_cases h100 : year % 100 = 0 <;>
    by_cases h400 : year % 400 = 0 <;> simp [h4, h100, h400] <;> omega

theorem daysBeforeMonth_succ (leap : Bool) (month : Nat) :
    daysBeforeMonth leap (month + 2) =
      daysBeforeMonth leap (month + 1) + (monthLengths leap).getD month 0 := by
  simp only [daysBeforeMonth, Nat.add_sub_cancel, show month + 2 - 1 = month + 1 by omega]
  rw [List.take_add_one, List.foldl_append, List.getD_eq_getElem?_getD]
  cases (monthLengths leap)[month]? <;> rfl

theorem daysBeforeMonth_end (leap : Bool) : daysBeforeMonth leap 13 = 365 + leap.toNat := by
  cases leap <;> rfl

theorem monthLengths_bounds : ∀ leap, ∀ month < 12,
    28 ≤ (monthLengths leap).getD month 0 ∧ (monthLengths leap).getD month 0 ≤ 31 := by
  decide

namespace Date

/-- The next day. -/
def next (d : Date) : Date :=
  if d.day < (monthLengths (isLeapYear d.year)).getD (d.month - 1) 0 then
    { d with day := d.day + 1 }
  else if d.month < 12 then ⟨d.year, d.month + 1, 1⟩
  else ⟨d.year + 1, 1, 1⟩

/-- What makes a date valid. -/
theorem isValid_iff {d : Date} : d.isValid ↔
    1 ≤ d.month ∧ d.month ≤ 12 ∧ 1 ≤ d.day ∧
      d.day ≤ (monthLengths (isLeapYear d.year)).getD (d.month - 1) 0 := by
  obtain ⟨year, month, day⟩ := d
  cases month with
  | zero => simp [isValid]
  | succ month =>
    simp only [isValid, Nat.add_sub_cancel, Bool.and_eq_true, decide_eq_true_eq]
    constructor
    · rintro ⟨hfirst, hlast⟩
      refine ⟨Nat.succ_pos _, ?_, hfirst, hlast⟩
      refine Nat.not_lt.1 fun hmonth => ?_
      rw [List.getD_eq_getElem?_getD, List.getElem?_eq_none
        (show (monthLengths _).length ≤ month from Nat.le_of_lt_succ hmonth)] at hlast
      exact Nat.not_le.2 hfirst hlast
    · rintro ⟨-, -, hfirst, hlast⟩
      exact ⟨hfirst, hlast⟩

theorem isValid_next {d : Date} (valid : d.isValid) : d.next.isValid := by
  obtain ⟨hlow, hhigh, hfirst, hlast⟩ := isValid_iff.1 valid
  rw [isValid_iff, next]
  split
  · rename_i hday
    exact ⟨hlow, hhigh, Nat.succ_pos _, hday⟩
  split
  · rename_i hmonth
    have hlength := (monthLengths_bounds (isLeapYear d.year) d.month hmonth).1
    exact ⟨Nat.succ_pos _, hmonth, Nat.le_refl 1, Nat.le_trans (Nat.le_add_left 1 27) hlength⟩
  · have hlength := (monthLengths_bounds (isLeapYear (d.year + 1)) 0 (by decide)).1
    exact ⟨Nat.le_refl 1, Nat.le_add_left 1 11, Nat.le_refl 1, Nat.le_trans (Nat.le_add_left 1 27) hlength⟩

/-- The next day is one day more. -/
theorem unixDay_next {d : Date} (valid : d.isValid) : d.next.unixDay = d.unixDay + 1 := by
  obtain ⟨hlow, hhigh, hfirst, hlast⟩ := isValid_iff.1 valid
  obtain ⟨month, hmonth⟩ : ∃ month, d.month = month + 1 := ⟨d.month - 1, by omega⟩
  have hdays := daysBeforeMonth_succ (isLeapYear d.year) month
  rw [hmonth, Nat.add_sub_cancel] at hlast
  rw [next, hmonth, Nat.add_sub_cancel]
  split
  · simp only [unixDay, hmonth]
    omega
  rename_i hday
  split
  · simp only [unixDay, hmonth]
    rw [hdays]
    omega
  · obtain rfl : month = 11 := by omega
    have hyear := daysBeforeYear_succ d.year
    have hend := daysBeforeMonth_end (isLeapYear d.year)
    have hstart (leap : Bool) : daysBeforeMonth leap 1 = 0 := rfl
    simp only [unixDay, hmonth, hstart, hyear]
    rw [hdays] at hend
    omega

end Date

namespace Certificate

open Text

namespace Clock

/-- The next second. -/
def next (c : Clock) : Clock :=
  if c.second < 59 then { c with second := c.second + 1 }
  else if c.minute < 59 then { c with minute := c.minute + 1, second := 0 }
  else if c.hour < 23 then { c with hour := c.hour + 1, minute := 0, second := 0 }
  else ⟨c.date.next, 0, 0, 0⟩

/-- What makes a date with a time of day valid. -/
theorem isValid_iff {c : Clock} :
    c.isValid ↔ c.date.isValid ∧ c.hour ≤ 23 ∧ c.minute ≤ 59 ∧ c.second ≤ 59 := by
  simp only [isValid, Bool.and_eq_true, decide_eq_true_eq, and_assoc]

theorem isValid_next {c : Clock} (valid : c.isValid) : c.next.isValid := by
  obtain ⟨hdate, hhour, hminute, hsecond⟩ := isValid_iff.1 valid
  rw [isValid_iff, next]
  split
  · rename_i h
    exact ⟨hdate, hhour, hminute, h⟩
  split
  · rename_i h
    exact ⟨hdate, hhour, h, Nat.zero_le _⟩
  split
  · rename_i h
    exact ⟨hdate, h, Nat.zero_le _, Nat.zero_le _⟩
  · exact ⟨Date.isValid_next hdate, Nat.zero_le _, Nat.zero_le _, Nat.zero_le _⟩

/-- The next second is one second more. -/
theorem unixSeconds_next {c : Clock} (valid : c.isValid) :
    c.next.unixSeconds = c.unixSeconds + 1 := by
  obtain ⟨hdate, hhour, hminute, hsecond⟩ := isValid_iff.1 valid
  have hday := Date.unixDay_next hdate
  unfold next
  split
  · simp only [unixSeconds]
    omega
  split
  · simp only [unixSeconds]
    omega
  split
  · simp only [unixSeconds]
    omega
  · simp only [unixSeconds, hday]
    omega

end Clock

/-! ## Digits -/

/-- The last decimal digit of a number. -/
def digitByte (n : Nat) : UInt8 := UInt8.ofNat (n % 10 + 0x30)

/-- The last two decimal digits of a number. -/
def pairBytes (n : Nat) : List UInt8 := [digitByte (n / 10), digitByte n]

theorem digit?_digitByte (n : Nat) : Time.digit? (digitByte n) = some (n % 10) := by
  rw [Time.digit?, digitByte, toNat_byte (by omega), if_pos (by omega), Nat.add_sub_cancel]

theorem pair?_digitByte_mod (n : Nat) :
    Time.pair? (digitByte (n / 10)) (digitByte n) = some (n % 100) := by
  rw [Time.pair?, digit?_digitByte, digit?_digitByte]
  exact congrArg some (by omega)

theorem pair?_digitByte {n : Nat} (h : n < 100) :
    Time.pair? (digitByte (n / 10)) (digitByte n) = some n := by
  rw [pair?_digitByte_mod, Nat.mod_eq_of_lt h]

/-- Month, day, hour, minute and second, in two digits each. -/
def Clock.digits (c : Clock) : List UInt8 :=
  pairBytes c.date.month ++ (pairBytes c.date.day ++ (pairBytes c.hour ++ (pairBytes c.minute ++
    pairBytes c.second)))

/-- Decimal places of a second, at most three. -/
inductive Places where
  | none
  | one (n : Fin 10)
  | two (n : Fin 100)
  | three (n : Fin 1000)
  deriving DecidableEq, Repr

namespace Places

/-- The milliseconds that places stand for. -/
def millis : Places → Nat
  | none => 0
  | one n => n * 100
  | two n => n * 10
  | three n => n

/-- The places after a point; none takes no point. -/
def bytes : Places → List UInt8
  | none => []
  | one n => [0x2E, digitByte n]
  | two n => 0x2E :: pairBytes n
  | three n => 0x2E :: (pairBytes (n / 10) ++ [digitByte n])

theorem fraction?_bytes (p : Places) : Time.fraction? (p.bytes ++ [0x5A]) = some p.millis := by
  cases p with
  | none => rfl
  | one n =>
    revert n
    decide +kernel
  | two n =>
    revert n
    decide +kernel
  | three n =>
    revert n
    decide +kernel

end Places

/-! ## Both forms -/

/-- A time in UTC: as a `UTCTime`, for the years from 1950 to 2049, or as a `GeneralizedTime`, for
years of four digits. -/
inductive WrittenTime where
  | utc (clock : Clock) (valid : clock.isValid)
    (year : 1950 ≤ clock.date.year ∧ clock.date.year ≤ 2049)
  | general (clock : Clock) (places : Places) (valid : clock.isValid)
    (year : 0 ≤ clock.date.year ∧ clock.date.year ≤ 9999)
  deriving DecidableEq, Repr

namespace WrittenTime

/-- The date and the time of day. -/
def clock : WrittenTime → Clock
  | utc clock _ _ => clock
  | general clock _ _ _ => clock

/-- Milliseconds past the second. -/
def millis : WrittenTime → Nat
  | utc _ _ _ => 0
  | general _ places _ _ => places.millis

/-- The instant that is written. -/
def instant (t : WrittenTime) : Instant :=
  ⟨t.clock.unixSeconds * nanosPerSecond + (t.millis * 1000000 : Nat)⟩

/-- The tag of the form. -/
def tag : WrittenTime → Nat
  | utc _ _ _ => 23
  | general _ _ _ _ => 24

/-- The characters of the time. -/
def content : WrittenTime → List UInt8
  | utc clock _ _ => pairBytes clock.date.year.toNat ++ (clock.digits ++ [0x5A])
  | general clock places _ _ =>
    pairBytes (clock.date.year.toNat / 100) ++ (pairBytes clock.date.year.toNat ++
      (clock.digits ++ (places.bytes ++ [0x5A])))

end WrittenTime

/-- The parts of a valid time have two digits. -/
theorem Clock.parts_lt {c : Clock} (valid : c.isValid) :
    c.date.month < 100 ∧ c.date.day < 100 ∧ c.hour < 100 ∧ c.minute < 100 ∧ c.second < 100 := by
  obtain ⟨hdate, hhour, hminute, hsecond⟩ := Clock.isValid_iff.1 valid
  obtain ⟨hlow, hhigh, -, hlast⟩ := Date.isValid_iff.1 hdate
  have hlength :=
    (monthLengths_bounds (isLeapYear c.date.year) (c.date.month - 1) (by omega)).2
  omega

theorem monthToMinute?_digits {c : Clock} (valid : c.isValid) (rest : List UInt8) :
    Time.monthToMinute? (c.digits ++ rest) =
      some ((c.date.month, c.date.day, c.hour, c.minute), pairBytes c.second ++ rest) := by
  obtain ⟨hmonth, hday, hhour, hminute, -⟩ := Clock.parts_lt valid
  simp only [Clock.digits, pairBytes, List.cons_append, List.nil_append, Time.monthToMinute?,
    pair?_digitByte hmonth, pair?_digitByte hday, pair?_digitByte hhour, pair?_digitByte hminute]
  rfl

namespace WrittenTime

theorem utc?_content {c : Clock} (valid : c.isValid)
    (year : 1950 ≤ c.date.year ∧ c.date.year ≤ 2049) :
    Time.utc? (utc c valid year).content = some (utc c valid year).instant := by
  obtain ⟨-, -, -, -, hsecond⟩ := Clock.parts_lt valid
  have hyear : Time.fullYear (c.date.year.toNat % 100) = c.date.year := by
    unfold Time.fullYear
    split <;> omega
  simp only [content, pairBytes, List.cons_append, List.nil_append, Time.utc?,
    pair?_digitByte_mod, monthToMinute?_digits valid, Time.secondAndZone?,
    pair?_digitByte hsecond, Time.offset?, hyear, Option.bind_some, bind, pure]
  rw [if_pos valid]
  simp [instant, Instant.ofUnixSeconds, clock, millis]

theorem general?_content {c : Clock} {places : Places} (valid : c.isValid)
    (year : 0 ≤ c.date.year ∧ c.date.year ≤ 9999) :
    Time.general? (general c places valid year).content =
      some (general c places valid year).instant := by
  obtain ⟨-, -, -, -, hsecond⟩ := Clock.parts_lt valid
  have hcentury : c.date.year.toNat / 100 < 100 := by omega
  have hyear : ((c.date.year.toNat / 100 * 100 + c.date.year.toNat % 100 : Nat) : Int) =
      c.date.year := by
    omega
  simp only [content, pairBytes, List.cons_append, List.nil_append, Time.general?,
    pair?_digitByte hcentury, pair?_digitByte_mod, monthToMinute?_digits valid,
    Time.secondAndMillis?, pair?_digitByte hsecond, Places.fraction?_bytes, hyear,
    Option.bind_some, bind, pure]
  rw [if_pos valid]
  rfl

/-- The form goes by the tag, and the instant is read back. -/
theorem read_content (t : WrittenTime) :
    (if t.tag = 23 then Time.utc? t.content
      else if t.tag = 24 then Time.general? t.content else none) = some t.instant := by
  cases t with
  | utc c valid year => exact (if_pos rfl).trans (utc?_content valid year)
  | general c places valid year =>
    exact (if_neg (show ¬24 = 23 by decide)).trans ((if_pos rfl).trans (general?_content valid year))

theorem tag_lt (t : WrittenTime) : t.tag < 31 := by
  cases t with
  | utc c valid year => exact (by decide : 23 < 31)
  | general c places valid year => exact (by decide : 24 < 31)

theorem isVisible_content (t : WrittenTime) : t.content.all Time.isVisible = true := by
  have hdigit (n : Nat) : Time.isVisible (digitByte n) = true := by
    simp only [Time.isVisible, digitByte, toNat_byte (show n % 10 + 0x30 < 256 by omega),
      Bool.and_eq_true, decide_eq_true_eq]
    omega
  have hend : Time.isVisible 0x5A = true := by decide
  have hpoint : Time.isVisible 0x2E = true := by decide
  cases t with
  | utc c _ _ => simp [content, Clock.digits, pairBytes, hdigit, hend]
  | general c places _ _ =>
    cases places <;>
      simp [content, Clock.digits, Places.bytes, pairBytes, hdigit, hend, hpoint]

end WrittenTime

end Certificate

end ClusterVitals
