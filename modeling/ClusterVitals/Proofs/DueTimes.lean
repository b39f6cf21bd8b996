import ClusterVitals.Proofs.TimerGenerations
import Mathlib.Data.List.Induction

/-!
# When timers are due

A timer is armed only when the end of a pass is taken: for as long as the pass asks for, or for the
delay of its failures in a row. It sleeps until it is due, and nothing moves the time when it is.

## Shape of the proofs

`Turn.slept` and `Turn.left` trace the timers that sleep and the messages that wait back by one
turn, and `ArmedAt` traces a timer that sleeps back to the event at which it was armed.
`completes_of_armed` says which event that was.
-/

namespace ClusterVitals

namespace Ledger

/-- The timer that is armed when the end of a pass is taken waits for as long as the pass asks for,
or for the delay of its failures in a row. -/
theorem delay_of_complete {l l' : Ledger} {b : Backoff} {r : Request} {result : PassResult}
    {orders : List Order} {events : List LogEvent}
    (h : l.complete b r result = .ok (l', orders, events)) {t : Timer} (ht : .arm t ∈ orders) :
    (∃ outcome, result = .ok outcome ∧ outcome.requeueAfter = some t.delay) ∨
      retryable result ∧ b.delayFor? (l.streak r.key) = some t.delay := by
  obtain ⟨l₁, orders₁, hsettle, -, rfl⟩ := complete_cases h
  have ht : .arm t ∈ orders₁ := (List.mem_append.1 ht).resolve_right not_arm_startPending
  rcases settle_cases hsettle with ⟨outcome, rfl, hl, -⟩ | ⟨e, delay, rfl, he, hdelay, hl, -⟩ |
      ⟨e, rfl, he, -, rfl, -⟩
  · rcases hrequeue : outcome.requeueAfter with _ | delay
    · simp only [succeed, hrequeue, Prod.mk.injEq] at hl
      rw [hl.2] at ht
      exact absurd ht List.not_mem_nil
    · simp only [succeed, hrequeue] at hl
      rw [(Prod.mk.inj hl).2] at ht
      rw [eq_of_arm_mem ht]
      exact .inl ⟨outcome, rfl, hrequeue⟩
  · rw [(Prod.mk.inj hl).2] at ht
    rw [eq_of_arm_mem ht]
    exact .inr ⟨he, hdelay⟩
  · exact absurd ht List.not_mem_nil

end Ledger

namespace Controller

open State Ledger

variable {c : Controller} {clock : Instant} {s : State} {events : List Event}

/-! ## Timers that sleep -/

/-- A timer that sleeps did so before, and has been stopped since at most. -/
def State.Slept (s : State) (x : Sleeper) : Prop :=
  ∃ y ∈ s.sleepers, y.timer = x.timer ∧ y.due = x.due ∧ (¬x.stopped → ¬y.stopped)

theorem slept_of_mem {x : Sleeper} (hx : x ∈ s.sleepers) : s.Slept x := ⟨x, hx, rfl, rfl, id⟩

/-- Stopping a timer neither adds nor moves one. -/
theorem slept_of_stopTimer {generation : Nat} {x : Sleeper}
    (hx : x ∈ (s.stopTimer generation).sleepers) : s.Slept x := by
  obtain ⟨y, hy, rfl⟩ := List.mem_map.1 hx
  split
  · exact ⟨y, hy, rfl, rfl, fun hlive => absurd rfl hlive⟩
  · exact slept_of_mem hy

/-- After orders a timer sleeps that slept before, or one of them has armed it. -/
theorem slept_of_obeyAll {orders : List Order} {x : Sleeper}
    (hx : x ∈ (s.obeyAll c orders).1.sleepers) :
    s.Slept x ∨ .arm x.timer ∈ orders ∧ x.due = s.now + x.timer.delay.nanos := by
  induction orders generalizing s with
  | nil => exact .inl (slept_of_mem hx)
  | cons o rest ih =>
    rcases ih (s := (s.obey c o).1) hx with ⟨y, hy, htimer, hdue, hlive⟩ | ⟨hmem, hdue⟩
    · cases o with
      | start r => exact .inl ⟨y, hy, htimer, hdue, hlive⟩
      | arm t =>
        rcases List.mem_append.1 hy with hy | hy
        · exact .inl ⟨y, hy, htimer, hdue, hlive⟩
        · obtain rfl := List.mem_singleton.1 hy
          rw [← htimer, ← hdue]
          exact .inr ⟨List.mem_cons_self, rfl⟩
      | stop generation =>
        obtain ⟨z, hz, htimer', hdue', hlive'⟩ := slept_of_stopTimer hy
        exact .inl ⟨z, hz, htimer'.trans htimer, hdue'.trans hdue, hlive' ∘ hlive⟩
    · refine .inr ⟨List.mem_cons_of_mem _ hmem, ?_⟩
      cases o <;> exact hdue

/-- A timer sleeps that slept before, or it is armed in the turn. -/
theorem Turn.slept {out : State × List Entry} (turn : Turn c s out) {x : Sleeper}
    (hx : x ∈ out.1.sleepers) :
    s.Slept x ∨ .armed x.timer ∈ out.2 ∧ x.due = s.now + x.timer.delay.nanos := by
  cases turn with
  | @receive n rest running first =>
    have hx : x ∈ (State.schedule c { s with queue := rest } n).1.sleepers := hx
    rw [sleepers_schedule] at hx
    exact .inl (slept_of_mem hx)
  | @complete e rest running first =>
    simp only [State.complete] at hx ⊢
    split at hx
    · exact absurd hx List.not_mem_nil
    · rename_i l orders events _
      rcases slept_of_obeyAll hx with hslept | ⟨hmem, hdue⟩
      · exact .inl hslept
      · have harmed : .armed x.timer ∈ orders.map Entry.ofOrder := List.mem_map_of_mem hmem
        simp only [obeyAll_entries]
        exact .inr ⟨List.mem_cons_of_mem _ (List.mem_append_right _ harmed), hdue⟩
  | @hear ring rest running first =>
    simp only [State.hear] at hx
    split at hx
    · rename_i hcurrent
      rw [Ledger.fire, if_pos hcurrent] at hx
      rw [sleepers_startOnly (startOnly_schedule _ _)] at hx
      exact .inl (slept_of_mem hx)
    · exact .inl (slept_of_mem hx)
  | ring asleep live due => exact .inl (slept_of_mem (List.mem_filter.1 hx).1)
  | reap asleep stopped => exact .inl (slept_of_mem (List.mem_filter.1 hx).1)
  | begin granted =>
    rw [begin_frame] at hx
    exact .inl (slept_of_mem hx)
  | stopTimer generation closing => exact .inl (slept_of_stopTimer hx)
  | _ => exact .inl (slept_of_mem hx)

/-- A message waits that waited before, or it is left by a timer. -/
theorem Turn.left {out : State × List Entry} (turn : Turn c s out) {m : Ring}
    (hm : m ∈ out.1.rings) :
    m ∈ s.rings ∨ ∃ x ∈ s.sleepers, ¬x.stopped ∧ x.timer.message = m := by
  cases turn with
  | @receive n rest running first =>
    have hm : m ∈ (State.schedule c { s with queue := rest } n).1.rings := hm
    rw [rings_schedule] at hm
    exact .inl hm
  | @complete e rest running first =>
    simp only [State.complete] at hm
    split at hm
    · exact .inl hm
    · rw [obeyAll_frame] at hm
      exact .inl hm
  | @hear ring rest running first =>
    left
    rw [first]
    refine List.mem_cons_of_mem _ ?_
    simp only [State.hear] at hm
    split at hm
    · rw [obeyAll_frame] at hm
      exact hm
    · exact hm
  | @ring t asleep live due =>
    rcases List.mem_append.1 hm with hm | hm
    · exact .inl hm
    · exact .inr ⟨t, asleep, live, (List.mem_singleton.1 hm).symm⟩
  | begin granted =>
    rw [begin_frame] at hm
    exact .inl hm
  | _ => exact .inl hm

/-! ## Where a timer was armed -/

/-- In a run, a timer was armed that is due at a time. -/
def ArmedAt (c : Controller) (clock : Instant) (events : List Event) (t : Timer) (due : Nat) :
    Prop :=
  ∃ before e after, events = before ++ e :: after ∧
    .armed t ∈ (c.step (c.run (.initial clock) before).1 e).2 ∧
    due = (c.run (.initial clock) before).1.now + t.delay.nanos

theorem ArmedAt.concat {t : Timer} {due : Nat} (h : ArmedAt c clock events t due) (e : Event) :
    ArmedAt c clock (events ++ [e]) t due := by
  obtain ⟨before, x, after, rfl, harmed, hdue⟩ := h
  exact ⟨before, x, after ++ [e], by rw [List.append_assoc, List.cons_append], harmed, hdue⟩

theorem armedAt_of_slept {e : Event} {x : Sleeper}
    (asleep : ∀ y ∈ (c.run (.initial clock) events).1.sleepers,
      ArmedAt c clock events y.timer y.due)
    (hx : (c.run (.initial clock) events).1.Slept x ∨
      .armed x.timer ∈ (c.step (c.run (.initial clock) events).1 e).2 ∧
        x.due = (c.run (.initial clock) events).1.now + x.timer.delay.nanos) :
    ArmedAt c clock (events ++ [e]) x.timer x.due := by
  rcases hx with ⟨y, hy, htimer, hdue, -⟩ | ⟨harmed, hdue⟩
  · rw [← htimer, ← hdue]
    exact (asleep y hy).concat e
  · exact ⟨events, e, [], rfl, harmed, hdue⟩

/-- Every timer that sleeps was armed, and has been due at the same time since. -/
theorem armedAt_of_asleep (c : Controller) (clock : Instant) (events : List Event) :
    ∀ x ∈ (c.run (.initial clock) events).1.sleepers, ArmedAt c clock events x.timer x.due := by
  induction events using List.reverseRecOn with
  | nil => exact fun x hx => absurd hx List.not_mem_nil
  | append_singleton events e ih =>
    intro x hx
    rw [run_concat] at hx
    exact armedAt_of_slept ih ((turn_step c _ e).slept hx)

/-! ## Arming a timer -/

/-- The timer that is armed sleeps, whatever other timer is stopped in its place. -/
theorem asleep_arm {l : Ledger} {t : Timer} {more : List Order} (h : StartOnly more)
    (other : l.timers[t.key]? ≠ some t.generation) :
    ⟨t, s.now + t.delay.nanos, false⟩ ∈
      (s.obeyAll c (.arm t :: l.stopOrders t.key ++ more)).1.sleepers := by
  rw [obeyAll_append, sleepers_startOnly h]
  show _ ∈ (obeyAll c (s.obey c (.arm t)).1 (l.stopOrders t.key)).1.sleepers
  have hasleep : ⟨t, s.now + t.delay.nanos, false⟩ ∈ (s.obey c (.arm t)).1.sleepers :=
    List.mem_append_right _ (List.mem_singleton_self _)
  rw [stopOrders]
  rcases hg : l.timers[t.key]? with _ | g
  · exact hasleep
  · refine List.mem_map.2 ⟨_, hasleep, if_neg ?_⟩
    rw [beq_iff_eq]
    rintro rfl
    exact other hg

theorem mem_armings {t : Timer} {es : List Entry} : t ∈ armings es ↔ .armed t ∈ es := by
  rw [armings, List.mem_filterMap]
  constructor
  · rintro ⟨entry, hentry, ht⟩
    cases entry with
    | armed t' =>
      obtain rfl := Option.some.inj ht
      exact hentry
    | _ => cases ht
  · exact fun h => ⟨.armed t, h, rfl⟩

/-- Taking the message of a timer arms none. -/
theorem armings_hear (c : Controller) (s : State) (ring : Ring) :
    armings (s.hear c ring).2 = [] := by
  simp only [State.hear]
  split
  · rename_i hcurrent
    rw [obeyAll_entries, Ledger.fire, if_pos hcurrent]
    exact armings_startOnly (startOnly_schedule _ _)
  · rfl

/-- Only the end of a pass that is taken arms a timer. -/
theorem completes_of_armed {e : Event} {t : Timer} (armed : t ∈ armings (c.step s e).2) :
    e = .complete ∧ ∃ x rest, s.phase = .running ∧ s.completions = x :: rest ∧
      c.step s e = State.complete c { s with completions := rest } x.request x.result := by
  cases e with
  | complete =>
    simp only [step] at armed
    split at armed
    · rename_i x rest running first
      exact ⟨rfl, x, rest, running, first, by simp only [step, running, first]⟩
    · exact absurd armed List.not_mem_nil
  | receive =>
    simp only [step] at armed
    split at armed
    · rename_i n rest _ _
      rw [show armings (State.receive c _ n).2 = [] from (timeless_schedule c _ n).1] at armed
      exact absurd armed List.not_mem_nil
    · exact absurd armed List.not_mem_nil
  | hear =>
    simp only [step] at armed
    split at armed
    · rw [armings_hear] at armed
      exact absurd armed List.not_mem_nil
    · exact absurd armed List.not_mem_nil
  | begin serial =>
    simp only [step] at armed
    split at armed
    · rw [(timeless_of_work fun _ he => isWork_of_mem_begin c he).1] at armed
      exact absurd armed List.not_mem_nil
    · exact absurd armed List.not_mem_nil
  | resume serial allowed =>
    simp only [step] at armed
    split at armed
    · split at armed
      · rw [(timeless_of_work fun _ he => isWork_of_mem_resume c he).1] at armed
        exact absurd armed List.not_mem_nil
      · exact absurd armed List.not_mem_nil
    · exact absurd armed List.not_mem_nil
  | _ =>
    simp only [step] at armed
    repeat' split at armed
    all_goals exact absurd armed List.not_mem_nil

/-- Where a timer is armed, the end of a pass was taken, and it is the one timer. -/
theorem armed_of_complete {l : Ledger} {x : Completion} {orders : List Order}
    {events : List LogEvent} {t : Timer}
    (h : s.ledger.complete c.config.backoff x.request x.result = .ok (l, orders, events))
    (armed : t ∈ armings (orders.map .ofOrder)) :
    .arm t ∈ orders ∧ t.key = x.request.key ∧ t.generation = s.ledger.lastGeneration + 1 ∧
      ∃ more, StartOnly more ∧ orders = .arm t :: s.ledger.stopOrders t.key ++ more := by
  rcases complete_timers h with ⟨hstart, -, -⟩ | ⟨t', more, rfl, hstart, hkey, hnext, -, -⟩
  · rw [armings_startOnly hstart] at armed
    exact absurd armed List.not_mem_nil
  · rw [← hkey, armings_arm hstart] at armed
    obtain rfl := List.mem_singleton.1 armed
    rw [← hkey]
    exact ⟨List.mem_cons_self, rfl, hnext, more, hstart, rfl⟩

end Controller

end ClusterVitals
