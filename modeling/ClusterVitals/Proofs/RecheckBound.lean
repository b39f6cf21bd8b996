import ClusterVitals.Proofs.DueTimes
import ClusterVitals.Proofs.Recheck
import ClusterVitals.Proofs.RetryDelay

/-!
# How long the secret that is watched goes without a look

After a pass that went well the secret is looked at again when the recheck interval has gone by. A
failure puts a retry in the place of this look, after the delay of the failures in a row. So the
secret waits no longer than the longer one of the recheck interval and the longest delay. While
everything is taken in time, either a pass of the secret is under way, or the end of one was taken
no longer ago than that.

## Shape of the proofs

`Dated.arms` says for how long the timers of the secret are armed. `OnTime` is the invariant of runs
in which time waits for what is due. The timer that is there to bring up the secret was then armed
no longer ago than its delay.
-/

namespace ClusterVitals

theorem ringTime_mono : Monotone ringTime := fun _ _ h =>
  Nat.mul_le_mul_right _ (Nat.div_le_div_right (Nat.add_le_add_right h _))

namespace Controller

open State Ledger

section

variable {c : Controller} {clock : Instant} {s : State} {j : List Entry} {events : List Event}

/-! ## The timers of the secret that is watched -/

/-- The delay of the timer that is armed when the end of a pass of the secret is taken: the recheck
interval after a success, and the delay of the failures in a row after a failure. -/
def delayAfter? (c : Controller) (s : State) (x : Completion) : Option Duration :=
  if retryable x.result then c.config.backoff.delayFor? (s.ledger.streak x.request.key)
  else some c.dispatcher.recheckInterval

/-- A timer is armed when the end of a pass is taken, and is due when its delay has gone by. -/
structure Arms (c : Controller) (s : State) (e : Event) (t : Timer) : Prop where
  taken : e = .complete
  ended : ∃ x ∈ s.completions.head?, x.request.key = t.key ∧ c.delayAfter? s x = some t.delay
  asleep : ⟨t, s.now + t.delay.nanos, false⟩ ∈ (c.step s e).1.sleepers

/-- How the passes of the secret that is watched have ended whose ends wait to be taken. -/
theorem recurs_run (events : List Event) : ∀ x ∈ (c.run (.initial clock) events).1.completions,
    x.request.key = c.dispatcher.subject → Recurs c x.result := by
  induction events using List.reverseRecOn with
  | nil => exact fun x hx => absurd hx List.not_mem_nil
  | append_singleton events e ih =>
    intro x hx hkey
    rw [run_concat] at hx
    have horderly := (regular_run c clock events).orderly
    exact (horderly.recurs (turn_step c _ e) hx hkey).elim (ih x · hkey) id

/-- Timers of the secret that is watched are armed at the ends of its passes. -/
theorem Dated.arms (h : Dated s j) {e : Event} {t : Timer}
    (recurs : ∀ x ∈ s.completions, x.request.key = c.dispatcher.subject → Recurs c x.result)
    (armed : t ∈ armings (c.step s e).2) (hkey : t.key = c.dispatcher.subject) :
    Arms c s e t := by
  obtain ⟨rfl, x, rest, running, first, hstep⟩ := completes_of_armed armed
  rcases hc : s.ledger.complete c.config.backoff x.request x.result with _ | ⟨l, orders, events⟩
  · simp only [hstep, State.complete, hc] at armed
    exact absurd armed List.not_mem_nil
  · simp only [hstep, State.complete, hc, obeyAll_entries, armings_completed] at armed
    obtain ⟨hmem, hown, hnext, more, hstart, rfl⟩ := armed_of_complete hc armed
    constructor
    case taken => rfl
    case ended =>
      refine ⟨x, by rw [first]; rfl, hown.symm, ?_⟩
      rcases delay_of_complete hc hmem with ⟨outcome, hok, hdelay⟩ | ⟨hretry, hdelay⟩
      · have hx : x ∈ s.completions := first ▸ List.mem_cons_self
        have hanother := (recurs x hx (hown.symm.trans hkey)).another outcome hok
        rw [delayAfter?, hok, ← hdelay, hanother]
        rfl
      · rw [delayAfter?, if_pos hretry, hdelay]
    case asleep =>
      have hpast : s.ledger.timers[t.key]? ≠ some t.generation := by
        intro hg
        have hbound := h.le_lastGeneration (by simp [running]) hg
        omega
      simp only [hstep, State.complete, hc]
      exact asleep_arm (s := { s with completions := rest, ledger := l }) hstart hpast

/-- The end of a pass that asks for a timer arms one, and no other. -/
theorem armings_of_wakes {x : Completion} {rest : List Completion} (running : s.phase = .running)
    (first : s.completions = x :: rest) (wakes : (wakeUp? x.request x.result).isSome)
    (delays : ∀ failures, (c.config.backoff.delayFor? failures).isSome) :
    ∃ t, armings (c.step s .complete).2 = [t] ∧ t.key = x.request.key := by
  rcases hc : s.ledger.complete c.config.backoff x.request x.result with
      left | ⟨l, orders, events⟩
  · have hdelay := delays (s.ledger.streak x.request.key)
    rw [(complete_eq_error_iff.1 hc).2.1] at hdelay
    cases hdelay
  · rw [step_complete running first, State.complete]
    simp only [hc, obeyAll_entries, armings_completed]
    rcases complete_timers hc with ⟨-, -, hlast⟩ | ⟨t, more, rfl, hstart, hkey, -⟩
    · -- a timer that is asked for gets the next generation
      have hnotes : l.lastGeneration = _ :=
        (congrArg Notes.lastGeneration (notes_complete hc).1).trans
          (Notes.lastGeneration_settle _ _ _)
      rw [if_pos wakes, hlast] at hnotes
      exact absurd hnotes (Nat.ne_of_lt (Nat.lt_succ_self _))
    · rw [← hkey, armings_arm hstart]
      exact ⟨t, rfl, rfl⟩

/-! ## Runs in which everything is taken in time -/

/-- Nothing waits to be taken, and no timer rings before so much time has gone by. -/
structure State.Idles (s : State) (nanos : Nat) : Prop where
  completions : s.completions = []
  rings : s.rings = []
  sleepers : ∀ x ∈ s.sleepers, ¬x.stopped → s.now + nanos ≤ ringTime x.due

/-- While the controller works, time goes by only when all that has come is taken, and only up to
what is due next. -/
def Punctual (c : Controller) (clock : Instant) (events : List Event) : Prop :=
  ∀ before nanos after, events = before ++ .advance nanos :: after →
    (c.run (.initial clock) before).1.phase = .running →
      (c.run (.initial clock) before).1.Idles nanos

theorem Punctual.of_concat {e : Event} (h : Punctual c clock (events ++ [e])) :
    Punctual c clock events := by
  rintro before nanos after rfl
  exact h before nanos (after ++ [e]) (by rw [List.append_assoc, List.cons_append])

/-- Time goes by in one way only. -/
theorem now_step {e : Event} (other : ∀ nanos, e ≠ .advance nanos) :
    (c.step s e).1.now = s.now := by
  cases e with
  | advance nanos => exact absurd rfl (other nanos)
  | receive =>
    simp only [step]
    split
    · rename_i n rest _ _
      show (obeyAll c _ _).1.now = _
      rw [obeyAll_frame]
    · rfl
  | complete =>
    simp only [step]
    split
    · simp only [State.complete]
      split
      · rfl
      · rw [obeyAll_frame]
    · rfl
  | hear =>
    simp only [step]
    split
    · simp only [State.hear]
      split
      · rw [obeyAll_frame]
      · rfl
    · rfl
  | begin serial =>
    simp only [step]
    split
    · rw [begin_frame]
    · rfl
  | _ =>
    simp only [step]
    repeat' split
    all_goals rfl

/-- The timers that sleep are not overdue, and the messages that wait were due just now. -/
structure OnTime (c : Controller) (clock : Instant) (events : List Event) (s : State) : Prop where
  asleep : ∀ x ∈ s.sleepers, ¬x.stopped → s.now ≤ ringTime x.due
  left : ∀ m ∈ s.rings, ∃ t due, ArmedAt c clock events t due ∧ t.message = m ∧
    s.now ≤ ringTime due

theorem onTime_run (punctual : Punctual c clock events)
    (running : (c.run (.initial clock) events).1.phase = .running) :
    OnTime c clock events (c.run (.initial clock) events).1 := by
  induction events using List.reverseRecOn with
  | nil => exact ⟨fun x hx => absurd hx List.not_mem_nil, fun m hm => absurd hm List.not_mem_nil⟩
  | append_singleton events e ih =>
    rw [run_concat] at running ⊢
    have hturn := turn_step c (c.run (.initial clock) events).1 e
    have hrunning := hturn.running running
    have h := ih punctual.of_concat hrunning
    have harmedAt := armedAt_of_asleep c clock events
    by_cases hadvance : ∃ nanos, e = .advance nanos
    · -- time goes by, but to no more than what is due next, and no message waits
      obtain ⟨nanos, rfl⟩ := hadvance
      have hidles := punctual events nanos [] rfl hrunning
      refine ⟨hidles.sleepers, fun m hm => ?_⟩
      have hm : m ∈ (c.run (.initial clock) events).1.rings := hm
      rw [hidles.rings] at hm
      exact absurd hm List.not_mem_nil
    · have hnow := now_step (c := c) (s := (c.run (.initial clock) events).1)
        fun nanos he => hadvance ⟨nanos, he⟩
      constructor
      case asleep =>
        intro x hx hlive
        rw [hnow]
        rcases hturn.slept hx with ⟨y, hy, -, hdue, hlive'⟩ | ⟨-, hdue⟩
        · rw [← hdue]
          exact h.asleep y hy (hlive' hlive)
        · exact (hdue ▸ Nat.le_add_right _ _).trans (le_ringTime x.due)
      case left =>
        intro m hm
        rw [hnow]
        rcases hturn.left hm with hm | ⟨x, hx, hlive, rfl⟩
        · obtain ⟨t, due, harmed, hmessage, hdue⟩ := h.left m hm
          exact ⟨t, due, harmed.concat e, hmessage, hdue⟩
        · exact ⟨x.timer, x.due, (harmedAt x hx).concat e, rfl, h.asleep x hx hlive⟩

/-- While everything is taken in time, an idle secret had the end of a pass taken no longer ago than
the delay of the timer that was armed then. -/
theorem ended_recently (punctual : Punctual c clock events)
    (running : (c.run (.initial clock) events).1.phase = .running)
    (arrived : ∃ r ∈ arrivals (c.run (.initial clock) events).2, r.key = c.dispatcher.subject)
    (idle : ¬(c.run (.initial clock) events).1.ledger.inFlight.contains c.dispatcher.subject) :
    ∃ before after t, events = before ++ .complete :: after ∧ t.key = c.dispatcher.subject ∧
      Arms c (c.run (.initial clock) before).1 .complete t ∧
      (c.run (.initial clock) events).1.now ≤
        ringTime ((c.run (.initial clock) before).1.now + t.delay.nanos) := by
  have hontime := onTime_run punctual running
  obtain ⟨t, due, ⟨before, e, after, heq, harmed, hdue⟩, hkey, hnow⟩ : ∃ t due,
      ArmedAt c clock events t due ∧ t.key = c.dispatcher.subject ∧
        (c.run (.initial clock) events).1.now ≤ ringTime due := by
    obtain ⟨generation, -, ⟨x, hx, -, hkey, hlive⟩ | ⟨ring, hring, -, hkey⟩⟩ :=
      rouses_of_idle running arrived idle
    · exact ⟨x.timer, x.due, armedAt_of_asleep c clock events x hx, hkey, hontime.asleep x hx hlive⟩
    · obtain ⟨t, due, harmed, rfl, hnow⟩ := hontime.left ring hring
      exact ⟨t, due, harmed, hkey, hnow⟩
  have harms := (dated_run c clock before).arms (recurs_run before) (mem_armings.2 harmed) hkey
  obtain rfl := harms.taken
  exact ⟨before, after, t, heq, hkey, harms, hdue ▸ hnow⟩

/-! ## The bound -/

/-- The longest time for which a timer of the secret that is watched is armed. -/
def longestWait? (c : Controller) : Option Nat :=
  c.config.backoff.longestDelay?.map fun longest =>
    max c.dispatcher.recheckInterval.nanos longest.nanos

/-- With retries that come at least as soon as the next look, no wait is longer than the recheck
interval. -/
theorem longestWait?_of_le {longest : Duration}
    (hlongest : c.config.backoff.longestDelay? = some longest)
    (soon : longest ≤ c.dispatcher.recheckInterval) :
    c.longestWait? = some c.dispatcher.recheckInterval.nanos := by
  rw [longestWait?, hlongest]
  exact congrArg some (Nat.max_eq_left soon)

example : (ofConfig .standard).longestWait? = some (3600 * nanosPerSecond) := by decide +kernel

theorem le_longestWait {x : Completion} {delay : Duration} {wait : Nat}
    (hdelay : c.delayAfter? s x = some delay) (hwait : c.longestWait? = some wait) :
    delay.nanos ≤ wait := by
  obtain ⟨longest, hlongest, rfl⟩ := Option.map_eq_some_iff.1 hwait
  unfold delayAfter? at hdelay
  split at hdelay
  · exact (Backoff.delay_le_longest hdelay hlongest).trans (Nat.le_max_right _ _)
  · rw [← Option.some.inj hdelay]
    exact Nat.le_max_left _ _

theorem Arms.le_longestWait {e : Event} {t : Timer} (h : Arms c s e t) {wait : Nat}
    (hwait : c.longestWait? = some wait) : t.delay.nanos ≤ wait := by
  obtain ⟨x, -, -, hdelay⟩ := h.ended
  exact Controller.le_longestWait hdelay hwait

/-- Every delay of valid settings is a duration if the longest one is. -/
theorem delays_of_longest {longest : Duration} (valid : c.config.backoff.violation? = none)
    (hlongest : longest ∈ c.config.backoff.longestDelay?) (failures : Nat) :
    (c.config.backoff.delayFor? failures).isSome := by
  obtain ⟨delay, hdelay⟩ := Backoff.exists_delay valid hlongest failures
  rw [hdelay]
  rfl

/-- What holds of the timers of the secret that is watched at the end of a run. -/
structure RecheckBound (c : Controller) (clock : Instant) (events : List Event) : Prop where
  /-- They are armed at the ends of its passes, for the recheck interval after a success and for the
  delay of the failures in a row after a failure, and never for longer than the longest wait. -/
  armed : ∀ before e after t, events = before ++ e :: after →
    .armed t ∈ (c.step (c.run (.initial clock) before).1 e).2 → t.key = c.dispatcher.subject →
      Arms c (c.run (.initial clock) before).1 e t ∧
        ∀ wait ∈ c.longestWait?, t.delay.nanos ≤ wait
  /-- After a failure, no timer is armed for longer than the longest delay. -/
  retried : ∀ before e after t, events = before ++ e :: after →
    .armed t ∈ (c.step (c.run (.initial clock) before).1 e).2 → t.key = c.dispatcher.subject →
      ∀ x ∈ (c.run (.initial clock) before).1.completions.head?, retryable x.result →
        ∀ longest ∈ c.config.backoff.longestDelay?, t.delay ≤ longest
  /-- If the longest delay of valid settings is a duration, every end of a pass of the secret that is
  taken arms one timer for it, a failure like a success. -/
  taken : ∀ before after x, events = before ++ .complete :: after →
    (c.run (.initial clock) before).1.phase = .running →
    x ∈ (c.run (.initial clock) before).1.completions.head? →
    x.request.key = c.dispatcher.subject →
    c.config.backoff.violation? = none → c.config.backoff.longestDelay?.isSome →
      ∃ t, armings (c.step (c.run (.initial clock) before).1 .complete).2 = [t] ∧
        t.key = c.dispatcher.subject
  /-- The longest delay is that of the settings if it is whole seconds below `2 ^ 53`. -/
  kept : ∀ n < 2 ^ 53, c.config.backoff.maxDelay.nanos = n * nanosPerSecond →
    c.config.backoff.longestDelay? = some c.config.backoff.maxDelay
  /-- If it is no longer than the recheck interval, no wait is longer than this. -/
  soon : ∀ longest ∈ c.config.backoff.longestDelay?, longest ≤ c.dispatcher.recheckInterval →
    c.longestWait? = some c.dispatcher.recheckInterval.nanos
  /-- While they sleep, they are due when this time has gone by since they were armed. -/
  asleep : ∀ x ∈ (c.run (.initial clock) events).1.sleepers,
    x.timer.key = c.dispatcher.subject → ∃ before after, events = before ++ .complete :: after ∧
      Arms c (c.run (.initial clock) before).1 .complete x.timer ∧
      x.due = (c.run (.initial clock) before).1.now + x.timer.delay.nanos
  /-- While everything is taken in time, either a pass of the secret is under way, or the end of one
  was taken no longer ago than the timer armed then waits, up to the next whole millisecond, and so
  no longer ago than the longest wait. -/
  inTime : Punctual c clock events → (c.run (.initial clock) events).1.phase = .running →
    (∃ r ∈ arrivals (c.run (.initial clock) events).2, r.key = c.dispatcher.subject) →
    (c.run (.initial clock) events).1.ledger.inFlight.contains c.dispatcher.subject ∨
      ∃ before after t, events = before ++ .complete :: after ∧ t.key = c.dispatcher.subject ∧
        Arms c (c.run (.initial clock) before).1 .complete t ∧
        (c.run (.initial clock) events).1.now ≤
          ringTime ((c.run (.initial clock) before).1.now + t.delay.nanos) ∧
        ∀ wait ∈ c.longestWait?, (c.run (.initial clock) events).1.now ≤
          ringTime ((c.run (.initial clock) before).1.now + wait)
  /-- If the longest delay of valid settings is a duration, the controller works until it is closed,
  and no longer. -/
  works : c.config.backoff.violation? = none → c.longestWait?.isSome →
    ((c.run (.initial clock) events).1.phase = .running ↔ .close ∉ events)

/-- In every run, the secret that is watched waits for the recheck interval after a success, and for
the delay of its failures in a row after a failure. -/
theorem recheck_bound (c : Controller) (clock : Instant) (events : List Event) :
    RecheckBound c clock events := by
  constructor
  case armed =>
    intro before e after t _ harmed hkey
    have harms := (dated_run c clock before).arms (recurs_run before) (mem_armings.2 harmed) hkey
    exact ⟨harms, fun wait hwait => harms.le_longestWait hwait⟩
  case retried =>
    intro before e after t _ harmed hkey x hx again longest hlongest
    obtain ⟨y, hy, -, hdelay⟩ :=
      ((dated_run c clock before).arms (recurs_run before) (mem_armings.2 harmed) hkey).ended
    obtain rfl : y = x := Option.mem_unique hy hx
    rw [delayAfter?, if_pos again] at hdelay
    exact Backoff.delay_le_longest hdelay hlongest
  case taken =>
    rintro before after x rfl hrunning hx hkey hvalid hlongest
    obtain ⟨longest, hlongest⟩ := Option.isSome_iff_exists.1 hlongest
    obtain ⟨rest, hfirst⟩ := List.head?_eq_some_iff.1 hx
    have hrecurs := recurs_run before x (List.mem_of_mem_head? hx) hkey
    obtain ⟨t, ht, hown⟩ := armings_of_wakes hrunning hfirst hrecurs.wakes
      (delays_of_longest hvalid hlongest)
    exact ⟨t, ht, hown.trans hkey⟩
  case kept => exact fun n high whole => Backoff.longestDelay?_of_whole whole high
  case soon => exact fun longest hlongest hsoon => longestWait?_of_le hlongest hsoon
  case asleep =>
    intro x hx hkey
    obtain ⟨before, e, after, rfl, harmed, hdue⟩ := armedAt_of_asleep c clock events x hx
    have harms := (dated_run c clock before).arms (recurs_run before) (mem_armings.2 harmed) hkey
    obtain rfl := harms.taken
    exact ⟨before, after, rfl, harms, hdue⟩
  case inTime =>
    intro hpunctual hrunning harrived
    refine or_iff_not_imp_left.2 fun hidle => ?_
    obtain ⟨before, after, t, heq, hkey, harms, hnow⟩ :=
      ended_recently hpunctual hrunning harrived hidle
    refine ⟨before, after, t, heq, hkey, harms, hnow, fun wait hwait => hnow.trans ?_⟩
    exact ringTime_mono (Nat.add_le_add_left (harms.le_longestWait hwait) _)
  case works =>
    intro hvalid hwait
    obtain ⟨wait, hwait⟩ := Option.isSome_iff_exists.1 hwait
    obtain ⟨longest, hlongest, -⟩ := Option.map_eq_some_iff.1 hwait
    rw [running_iff, and_iff_left (not_breaksIn_of_delays (delays_of_longest hvalid hlongest))]

end

/-! ## A short recheck interval -/

namespace ShortRecheck

/-- A look at the secret every 900 milliseconds. -/
def config : Config :=
  { Config.standard with
    certificate :=
      { CertificateConfig.standard with recheckInterval := ⟨900 * nanosPerMilli, by decide⟩ } }

def controller : Controller := .ofConfig config

def secret : ObjectKey := ⟨"linkerd", "linkerd-identity-issuer"⟩

/-- The only pass of the secret fails to fetch it. -/
def failed : State :=
  (controller.run (.initial (.ofUnixSeconds 1792281600)) [.change (.inject ⟨1, none⟩),
    .notify (.ofChange secret), .receive, .begin 0, .resume 0 none]).1

/-- 950 milliseconds after its end was taken. -/
def later : State := (controller.run failed [.complete, .advance (950 * nanosPerMilli)]).1

/-- The retry is armed for a whole second, and does not come within the recheck interval. -/
theorem retry_later_than_interval :
    config.IsValid ∧ controller.dispatcher.subject = secret ∧
      armings (controller.step failed .complete).2 =
        [⟨1, .ofChange secret, ⟨nanosPerSecond, by decide⟩⟩] ∧
      controller.dispatcher.recheckInterval.nanos < nanosPerSecond ∧
      failed.now + controller.dispatcher.recheckInterval.nanos < later.now ∧
      later.phase = .running ∧ ¬later.ledger.inFlight.contains secret ∧ later.rings = [] ∧
      later.sleepers.map (·.due) = [failed.now + nanosPerSecond] ∧
      later.ledger.stats.reconciles = 1 := by
  decide +kernel

end ShortRecheck

end Controller

end ClusterVitals
