import ClusterVitals.Duration.Basic

/-!
# Backoff

The delays between the tries of a pass that keeps failing: each is a multiple of the one before, up
to a longest one.
-/

namespace ClusterVitals

/-- How the delays of retries grow. -/
structure Backoff where
  initialDelay : Duration
  maxDelay : Duration
  multiplier : Binary64
  deriving DecidableEq, Repr

namespace Backoff

/-- The largest exponent of a power of the multiplier. -/
def largestExponent : Nat := 2147483647

/-- The delay in seconds before the retry that follows a number of earlier failures. -/
def delaySeconds (b : Backoff) (failures : Nat) : Binary64 :=
  Binary64.minimum
    (b.initialDelay.toSeconds * b.multiplier.pow (min failures largestExponent))
    b.maxDelay.toSeconds

/-- The delay before the retry that follows a number of earlier failures, if the seconds are those
of a duration. -/
def delayFor? (b : Backoff) (failures : Nat) : Option Duration :=
  Duration.ofFloatSeconds? (b.delaySeconds failures)

end Backoff

end ClusterVitals
