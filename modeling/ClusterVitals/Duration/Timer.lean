import ClusterVitals.Duration.Basic

/-!
# Timers

Running time is counted in nanoseconds from some start. Timers ring at whole milliseconds only: one
that is due in between rings at the next.
-/

namespace ClusterVitals

/-- Nanoseconds in a millisecond. -/
def nanosPerMilli : Nat := 1000000

/-- The time at which a timer that is due at `due` rings. -/
def ringTime (due : Nat) : Nat := (due + (nanosPerMilli - 1)) / nanosPerMilli * nanosPerMilli

/-- No timer rings early. -/
theorem le_ringTime (due : Nat) : due ≤ ringTime due := by
  unfold ringTime nanosPerMilli
  omega

/-- Timers that are due at a whole millisecond ring when they are due. -/
theorem ringTime_of_dvd {due : Nat} (h : nanosPerMilli ∣ due) : ringTime due = due := by
  obtain ⟨n, rfl⟩ := h
  unfold ringTime nanosPerMilli
  omega

end ClusterVitals
