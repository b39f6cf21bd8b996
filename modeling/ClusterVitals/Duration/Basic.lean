import ClusterVitals.Binary64.Basic

/-!
# Durations

A duration is a whole number of nanoseconds below `2 ^ 64` seconds. Conversions to and from
floating-point seconds round to the nearest number of the target, and `text` is the form in which
messages show a duration: in its largest unit with a non-zero whole part.
-/

namespace ClusterVitals

/-- Nanoseconds in a second. -/
def nanosPerSecond : Nat := 1000000000

/-- The first number of nanoseconds that is too long for a duration. -/
def Duration.limit : Nat := Nat.pow 2 64 * nanosPerSecond

/-- A span of time in nanoseconds. -/
structure Duration where
  nanos : Nat
  nanos_lt : nanos < Duration.limit
  deriving DecidableEq, Repr

namespace Duration

/-- The duration of a number of nanoseconds, if it is short enough. -/
def ofNanos? (n : Nat) : Option Duration :=
  if h : n < limit then some ⟨n, h⟩ else none

@[simp] theorem ofNanos?_nanos (d : Duration) : ofNanos? d.nanos = some d := by
  simp [ofNanos?, d.nanos_lt]

theorem nanos_of_ofNanos? {n : Nat} {d : Duration} (h : ofNanos? n = some d) : d.nanos = n := by
  unfold ofNanos? at h
  split at h
  · cases h; rfl
  · simp at h

/-- No time at all. -/
def zero : Duration := ⟨0, by decide⟩

/-- The longest duration. -/
def longest : Duration := ⟨limit - 1, by decide⟩

/-- The duration of a number of seconds, if it is short enough. -/
def ofSeconds? (n : Nat) : Option Duration :=
  ofNanos? (n * nanosPerSecond)

/-- The duration of a number of milliseconds, if it is short enough. -/
def ofMillis? (n : Nat) : Option Duration :=
  ofNanos? (n * 1000000)

/-- Whole seconds. -/
def seconds (d : Duration) : Nat := d.nanos / nanosPerSecond

/-- Nanoseconds past the last whole second. -/
def subsecNanos (d : Duration) : Nat := d.nanos % nanosPerSecond

/-- Shorter or of equal length. -/
instance : LE Duration := ⟨fun a b => a.nanos ≤ b.nanos⟩

/-- Shorter. -/
instance : LT Duration := ⟨fun a b => a.nanos < b.nanos⟩

instance (a b : Duration) : Decidable (a ≤ b) := inferInstanceAs (Decidable (a.nanos ≤ b.nanos))
instance (a b : Duration) : Decidable (a < b) := inferInstanceAs (Decidable (a.nanos < b.nanos))

/-- The duration in seconds: whole seconds and the rest are rounded one by one before they are
added. -/
def toSeconds (d : Duration) : Binary64 :=
  Binary64.ofNat d.seconds + Binary64.ofNat d.subsecNanos / Binary64.ofNat nanosPerSecond

/-- The duration nearest to a number of seconds, the even number of nanoseconds of two equally
near. A NaN, a negative number and one of `2 ^ 64` seconds or more have none. -/
def ofFloatSeconds? : Binary64 → Option Duration
  | .nan => none
  | .number negative rank _ =>
    if rank = 0 then some zero
    else if negative ∨ rank = Binary64.infinityRank then none
    else ofNanos? (Binary64.roundHalfEven (Binary64.units rank * nanosPerSecond) (Nat.pow 2 1074))

/-- Drops the zeros at the end of decimal places. -/
def trimZeros (places : List Char) : List Char :=
  (places.reverse.dropWhile (· = '0')).reverse

/-- A whole part, and decimal places as far as they are needed. -/
def withPlaces (whole part width : Nat) : String :=
  let digits := Nat.toDigits 10 part
  let places := trimZeros (List.replicate (width - digits.length) '0' ++ digits)
  toString whole ++ (if places.isEmpty then "" else "." ++ String.ofList places)

/-- The duration in its largest unit with a non-zero whole part, with the decimal places it needs. -/
def text (d : Duration) : String :=
  let n := d.nanos
  if 1000000000 ≤ n then withPlaces (n / 1000000000) (n % 1000000000) 9 ++ "s"
  else if 1000000 ≤ n then withPlaces (n / 1000000) (n % 1000000) 6 ++ "ms"
  else if 1000 ≤ n then withPlaces (n / 1000) (n % 1000) 3 ++ "µs"
  else toString n ++ "ns"

end Duration

end ClusterVitals
