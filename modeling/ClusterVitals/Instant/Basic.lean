import ClusterVitals.Binary64.Basic
import ClusterVitals.Duration.Basic

/-!
# Instants

A point of the time line, counted in nanoseconds from the start of 1970 in UTC, and the distance of
two of them in days.
-/

namespace ClusterVitals

/-- A point of the time line. -/
structure Instant where
  nanos : Int
  deriving DecidableEq, Repr

namespace Instant

/-- The instant a number of seconds after the start of 1970. -/
def ofUnixSeconds (seconds : Int) : Instant := ⟨seconds * nanosPerSecond⟩

/-- Whole seconds from the start of 1970, rounded down. -/
def unixSeconds (t : Instant) : Int := t.nanos / nanosPerSecond

/-- Nanoseconds past the last whole second. -/
def subsecNanos (t : Instant) : Nat := (t.nanos % nanosPerSecond).toNat

@[simp] theorem unixSeconds_ofUnixSeconds (s : Int) : (ofUnixSeconds s).unixSeconds = s := by
  simp only [unixSeconds, ofUnixSeconds, nanosPerSecond]
  omega

/-- The days from `now` until `t`, negative when `t` has passed. Whole seconds and the nanoseconds
beyond them, both toward zero, are rounded one by one before they are added. -/
def daysUntil (t now : Instant) : Binary64 :=
  let distance := t.nanos - now.nanos
  let seconds := Binary64.ofInt (distance.tdiv nanosPerSecond)
  let rest := Binary64.ofInt (distance.tmod nanosPerSecond) / Binary64.ofNat nanosPerSecond
  (seconds + rest) / Binary64.ofNat 86400

end Instant

end ClusterVitals
