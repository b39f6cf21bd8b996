import ClusterVitals.Config.Validity
import ClusterVitals.Proofs.Bookings
import Mathlib.Data.List.Induction

/-!
# Controllers that break off

A controller releases the object of a pass and counts its failure before it asks for the delay of
the next try. If this delay is not a duration, the controller breaks off there. Its passes and
timers are gone and nothing moves any more, and the books are left with a failure that is counted
and a timer that is not armed.

## Shape of the proofs

`complete_eq_error_iff` says when the books are left in the middle of an entry, and what they hold
then. A controller that works goes on working but for two events (`running_step`), and one that is
over stays so (`Emptied.unmoved_run`). So a run breaks off at one event, and `BrokenAt` says what
there is before and after it.
-/

namespace ClusterVitals

open Controller

namespace Ledger

variable {l left : Ledger} {b : Backoff} {r : Request} {result : PassResult}

/-! ## Books that are left -/

/-- Noting the end of a pass stops short of another try whose delay is not a duration, when the
failure is counted. -/
theorem settle_eq_error_iff {n : Notification} :
    l.settle b n result = .error left ↔
      retryable result ∧ b.delayFor? (l.streak n.key) = none ∧ left = l.countRetry n.key := by
  rcases result with e | outcome
  · by_cases hretry : e.isRetryable
    · have hagain : retryable (.error e) := hretry
      rw [settle, if_pos hretry, tryAgain, streak_countRetry]
      rcases hdelay : b.delayFor? (l.streak n.key) with _ | delay
      · simp [hagain, eq_comm]
      · simp
    · rw [settle, if_neg hretry]
      simp [retryable, hretry]
  · simp [settle, retryable]

/-- The object is released first. -/
theorem complete_eq_error_iff :
    l.complete b r result = .error left ↔
      retryable result ∧ b.delayFor? (l.streak r.key) = none ∧
        left = (l.release r.key).countRetry r.key := by
  refine Iff.trans ?_ (settle_eq_error_iff (l := l.release r.key) (n := r.notification))
  rw [complete]
  rcases (l.release r.key).settle b r.notification result with _ | settled
  · exact Iff.rfl
  · exact ⟨fun h => (by cases h), fun h => (by cases h)⟩

end Ledger

namespace Controller

open State Ledger

variable {c : Controller} {clock : Instant} {s s' : State} {j es : List Entry}
  {events : List Event}

/-! ## When a controller stops working -/

/-- A controller that works breaks off when it takes the first end of a pass: the pass is to be
tried again, after a delay that is not a duration. -/
def Breaks (c : Controller) (s : State) : Prop :=
  s.phase = .running ∧ ∃ x ∈ s.completions.head?, retryable x.result ∧
    c.config.backoff.delayFor? (s.ledger.streak x.request.key) = none

/-- In a run, the controller broke off. -/
def BreaksIn (c : Controller) (clock : Instant) (events : List Event) : Prop :=
  ∃ before after, events = before ++ .complete :: after ∧
    Breaks c (c.run (.initial clock) before).1

theorem BreaksIn.concat (h : BreaksIn c clock events) (e : Event) :
    BreaksIn c clock (events ++ [e]) := by
  obtain ⟨before, after, rfl, hbreaks⟩ := h
  exact ⟨before, after ++ [e], by rw [List.append_assoc, List.cons_append], hbreaks⟩

/-- A controller whose delays are all durations does not break off. -/
theorem not_breaksIn_of_delays (delays : ∀ failures, (c.config.backoff.delayFor? failures).isSome) :
    ¬BreaksIn c clock events := by
  rintro ⟨before, after, -, -, x, -, -, hnone⟩
  have hdelay := delays ((c.run (.initial clock) before).1.ledger.streak x.request.key)
  rw [hnone] at hdelay
  cases hdelay

/-- Taking the first end of a pass that waits. -/
theorem step_complete {x : Completion} {rest : List Completion} (running : s.phase = .running)
    (first : s.completions = x :: rest) :
    c.step s .complete = State.complete c { s with completions := rest } x.request x.result := by
  simp only [step, running, first]

/-- What there is when the controller has broken off: the end of the pass is taken, its object is
released and its failure counted, and nothing else is noted. -/
theorem step_of_endless {x : Completion} {rest : List Completion} (running : s.phase = .running)
    (first : s.completions = x :: rest) (again : retryable x.result)
    (endless : c.config.backoff.delayFor? (s.ledger.streak x.request.key) = none) :
    c.step s .complete =
      (State.breakOff { s with completions := rest }
          ((s.ledger.release x.request.key).countRetry x.request.key),
        [.brokeOff x.request x.result]) := by
  have hleft : s.ledger.complete c.config.backoff x.request x.result =
      .error ((s.ledger.release x.request.key).countRetry x.request.key) :=
    complete_eq_error_iff.2 ⟨again, endless, rfl⟩
  rw [step_complete running first, State.complete]
  simp only [hleft]

/-- A controller that works goes on working, unless it is closed or breaks off. -/
theorem running_step (running : s.phase = .running) (e : Event) :
    (c.step s e).1.phase = .running ∨ e = .close ∨ e = .complete ∧ Breaks c s := by
  -- only taking the end of a pass and closing touch the phase of a controller that works
  cases e with
  | complete =>
    simp only [step]
    split
    · rename_i x rest _ first
      simp only [State.complete]
      split
      · rename_i left hleft
        obtain ⟨again, endless, -⟩ := complete_eq_error_iff.1 hleft
        exact .inr (.inr ⟨trivial, running, x, by rw [first]; rfl, again, endless⟩)
      · rw [obeyAll_frame]
        exact .inl running
    · exact .inl running
  | close => exact .inr (.inl rfl)
  | receive =>
    simp only [step]
    split
    · rename_i n rest _ _
      exact .inl ((phase_schedule c { s with queue := rest } n).trans running)
    · exact .inl running
  | hear =>
    simp only [step]
    split
    · simp only [State.hear]
      split
      · rw [obeyAll_frame]
        exact .inl running
      · exact .inl running
    · exact .inl running
  | begin serial =>
    simp only [step]
    split
    · rw [begin_frame]
      exact .inl running
    · exact .inl running
  | finish =>
    simp only [step]
    rw [if_neg (by simp [running])]
    exact .inl running
  | _ =>
    simp only [step]
    repeat' split
    all_goals exact .inl running

/-- A controller that broke off stays so. -/
theorem Turn.broken {out : State × List Entry} (turn : Turn c s out) (broken : s.phase = .broken) :
    out.1.phase = .broken := by
  cases turn with
  | receive running => rw [broken] at running; cases running
  | complete running => rw [broken] at running; cases running
  | hear running => rw [broken] at running; cases running
  | begin granted =>
    rw [begin_frame]
    exact broken
  | close running => rw [broken] at running; cases running
  | stopTimer generation closing => rw [broken] at closing; cases closing
  | finish closing => rw [broken] at closing; cases closing
  | _ => exact broken

/-- A controller that works has worked before. -/
theorem Turn.running {out : State × List Entry} (turn : Turn c s out)
    (works : out.1.phase = .running) : s.phase = .running := by
  cases turn with
  | receive running => exact running
  | complete running => exact running
  | hear running => exact running
  | close running => exact running
  | begin granted =>
    rw [begin_frame] at works
    exact works
  | finish => cases works
  | _ => exact works

/-! ## Once it is over -/

/-- The controller has stopped, or it broke off. -/
def Phase.isOver : Phase → Bool
  | .stopped | .broken => true
  | _ => false

/-- Once the controller is over, there are no passes and no timers. -/
def Emptied (s : State) : Prop := s.phase.isOver → s.passes = [] ∧ s.sleepers = []

theorem Emptied.of_phase (going : s.phase = .running ∨ s.phase = .closing) : Emptied s := by
  intro hover
  rcases going with hphase | hphase <;> rw [hphase] at hover <;> cases hover

theorem Turn.emptied {out : State × List Entry} (turn : Turn c s out) (h : Emptied s) :
    Emptied out.1 := by
  -- what a pass or a timer does, it does while it is there
  have hpass {p : Pass} {P : Prop} (hp : p ∈ s.passes) (ended : s.phase.isOver) : P := by
    rw [(h ended).1] at hp
    exact absurd hp List.not_mem_nil
  have htimer {x : Sleeper} {P : Prop} (hx : x ∈ s.sleepers) (ended : s.phase.isOver) : P := by
    rw [(h ended).2] at hx
    exact absurd hx List.not_mem_nil
  cases turn with
  | @receive n rest running first =>
    exact .of_phase (.inl ((phase_schedule c { s with queue := rest } n).trans running))
  | @complete x rest running first =>
    simp only [State.complete]
    split
    · exact fun _ => ⟨rfl, rfl⟩
    · rw [obeyAll_frame]
      exact .of_phase (.inl running)
  | hear running =>
    refine .of_phase (.inl ?_)
    simp only [State.hear]
    split
    · rw [obeyAll_frame]
      exact running
    · exact running
  | ring asleep => exact fun ended => htimer asleep ended
  | reap asleep => exact fun ended => htimer asleep ended
  | begin granted =>
    rw [begin_frame]
    exact fun ended => hpass granted ended
  | resume allowed fetching => exact fun ended => hpass fetching ended
  | expire fetching => exact fun ended => hpass fetching ended
  | drop serial =>
    intro ended
    refine ⟨?_, (h ended).2⟩
    have hnone : requests (s.endPass c serial).passes = [] := by
      rw [requests_endPass, (h ended).1]
      rfl
    exact List.map_eq_nil_iff.1 hnone
  | close => exact .of_phase (.inr rfl)
  | stopTimer generation closing => exact .of_phase (.inr closing)
  | finish closing passes sleepers => exact fun _ => ⟨passes, sleepers⟩
  | _ => exact h

theorem Emptied.run (h : Emptied s) (events : List Event) : Emptied (c.run s events).1 :=
  run_invariant c Emptied (fun s e h => (turn_step c s e).emptied h) s events h

/-- Only time, the clock, and the objects and faults of the cluster have changed. -/
structure Unmoved (s : State) (out : State × List Entry) : Prop where
  quiet : out.2 = []
  rest : ∃ cluster clock now, out.1 = { s with cluster, clock, now } ∧
    cluster.podFetches = s.cluster.podFetches ∧ cluster.secretFetches = s.cluster.secretFetches

theorem Unmoved.refl (s : State) : Unmoved s (s, []) :=
  ⟨rfl, s.cluster, s.clock, s.now, rfl, rfl, rfl⟩

theorem Unmoved.trans (h : Unmoved s (s', es)) {out : State × List Entry} (h' : Unmoved s' out) :
    Unmoved s (out.1, es ++ out.2) := by
  obtain ⟨hquiet, cluster, clock, now, hstate, hpods, hsecrets⟩ := h
  obtain ⟨hquiet', cluster', clock', now', hstate', hpods', hsecrets'⟩ := h'
  obtain rfl : s' = { s with cluster, clock, now } := hstate
  refine ⟨?_, cluster', clock', now', hstate', hpods'.trans hpods, hsecrets'.trans hsecrets⟩
  rw [show es = [] from hquiet, hquiet']
  rfl

/-- Changing the cluster fetches nothing. -/
theorem fetches_change (cluster : Cluster) (change : ClusterChange) :
    (change.apply cluster).podFetches = cluster.podFetches ∧
      (change.apply cluster).secretFetches = cluster.secretFetches := by
  cases change <;> exact ⟨rfl, rfl⟩

/-- Once the controller is over, no event moves it. -/
theorem Emptied.unmoved_step (h : Emptied s) (ended : s.phase.isOver) (e : Event) :
    Unmoved s (c.step s e) := by
  obtain ⟨hpasses, hsleepers⟩ := h ended
  have hrunning : s.phase ≠ .running := by
    rintro hphase
    rw [hphase] at ended
    cases ended
  have hclosing : s.phase ≠ .closing := by
    rintro hphase
    rw [hphase] at ended
    cases ended
  have hpass (serial : Nat) : s.pass? serial = none := by
    rw [State.pass?, hpasses]
    rfl
  have hsleeper (generation : Nat) : s.sleeper? generation = none := by
    rw [State.sleeper?, hsleepers]
    rfl
  cases e with
  | notify n =>
    simp only [step]
    rw [if_neg (by simp [State.isLive, hrunning, hclosing])]
    exact .refl s
  | receive =>
    simp only [step]
    split
    · exact absurd ‹_› hrunning
    · exact .refl s
  | complete =>
    simp only [step]
    split
    · exact absurd ‹_› hrunning
    · exact .refl s
  | hear =>
    simp only [step]
    split
    · exact absurd ‹_› hrunning
    · exact .refl s
  | advance nanos => exact ⟨rfl, s.cluster, s.clock, s.now + nanos, rfl, rfl, rfl⟩
  | setClock clock => exact ⟨rfl, s.cluster, clock, s.now, rfl, rfl, rfl⟩
  | change change =>
    exact ⟨rfl, change.apply s.cluster, s.clock, s.now, rfl, fetches_change s.cluster change⟩
  | close =>
    simp only [step]
    rw [if_neg hrunning]
    exact .refl s
  | stopTimer generation =>
    simp only [step]
    rw [if_neg hclosing]
    exact .refl s
  | stopPass serial =>
    simp only [step]
    rw [if_neg hclosing]
    exact .refl s
  | finish =>
    simp only [step]
    rw [if_neg fun hfinish => hclosing hfinish.1]
    exact .refl s
  | _ =>
    simp only [step, hpass, hsleeper]
    exact .refl s

theorem Emptied.unmoved_run (h : Emptied s) (ended : s.phase.isOver) (events : List Event) :
    Unmoved s (c.run s events) := by
  induction events generalizing s with
  | nil => exact .refl s
  | cons e rest ih =>
    have hfirst := h.unmoved_step (c := c) ended e
    have hover : (c.step s e).1.phase.isOver := by
      obtain ⟨-, cluster, clock, now, hstate, -⟩ := hfirst
      rw [hstate]
      exact ended
    exact hfirst.trans (ih ((turn_step c s e).emptied h) hover)

/-! ## Where a run broke off -/

/-- The ends of passes at which a controller broke off. -/
def Entry.break? : Entry → Option Completion
  | .brokeOff r result => some ⟨r, result⟩
  | _ => none

/-- The ends of passes at which the controller broke off, in order. -/
def breaks (j : List Entry) : List Completion := j.filterMap Entry.break?

theorem breaks_append (j k : List Entry) : breaks (j ++ k) = breaks j ++ breaks k :=
  List.filterMap_append

/-- Work breaks nothing off. -/
theorem breaks_of_work (work : ∀ e ∈ es, e.isWork) : breaks es = [] := by
  refine List.filterMap_eq_nil_iff.2 ?_
  intro e he
  have hwork := work e he
  cases e with
  | brokeOff r result => cases hwork
  | _ => rfl

/-- Nor does an order. -/
theorem breaks_ofOrder (orders : List Order) : breaks (orders.map .ofOrder) = [] := by
  refine List.filterMap_eq_nil_iff.2 ?_
  intro e he
  obtain ⟨o, -, rfl⟩ := List.mem_map.1 he
  cases o <;> rfl

/-- The journal has word of it only where the controller breaks off. -/
theorem Turn.broke {out : State × List Entry} (turn : Turn c s out) {x : Completion}
    (broke : x ∈ breaks out.2) :
    s.phase = .running ∧ ∃ rest left, s.completions = x :: rest ∧
      s.ledger.complete c.config.backoff x.request x.result = .error left ∧
      out = (State.breakOff { s with completions := rest } left,
        [.brokeOff x.request x.result]) := by
  -- all other turns leave work, or orders that are carried out
  have hnone {P : Prop} (h : breaks out.2 = []) : P := by
    rw [h] at broke
    exact absurd broke List.not_mem_nil
  cases turn with
  | receive =>
    refine hnone ?_
    show breaks (_ :: _ :: (obeyAll c _ _).2) = []
    rw [obeyAll_entries]
    exact breaks_ofOrder _
  | @complete y rest running first =>
    rcases hc : s.ledger.complete c.config.backoff y.request y.result with
        left | ⟨l, orders, logged⟩
    · simp only [State.complete, hc] at broke ⊢
      obtain rfl : x = y := List.mem_singleton.1 broke
      exact ⟨running, rest, left, first, hc, rfl⟩
    · refine hnone ?_
      have hlogged : breaks (logged.map .logged) = [] :=
        breaks_of_work fun e he => isWork_of_mem_logged he
      simp only [State.complete, hc]
      rw [obeyAll_entries, breaks_append, breaks_ofOrder, List.append_nil]
      exact hlogged
  | hear =>
    refine hnone ?_
    simp only [State.hear]
    split
    · rw [obeyAll_entries]
      exact breaks_ofOrder _
    · rfl
  | begin granted => exact hnone (breaks_of_work fun e he => isWork_of_mem_begin c he)
  | resume => exact hnone (breaks_of_work fun e he => isWork_of_mem_resume c he)
  | _ => exact hnone rfl

/-- Nothing happens after it. -/
theorem quiet_of_broke {x : Completion} {e : Event} (broke : x ∈ breaks (c.step s e).2)
    (events : List Event) : (c.run (c.step s e).1 events).2 = [] := by
  obtain ⟨-, rest, left, -, -, hstep⟩ := (turn_step c s e).broke broke
  rw [hstep]
  exact (Emptied.unmoved_run (fun _ => ⟨rfl, rfl⟩) rfl events).quiet

/-- A turn at which the controller does not break off leaves no books, and has no word of it. -/
theorem Turn.unbroken {out : State × List Entry} (turn : Turn c s out)
    (unbroken : out.1.phase ≠ .broken) :
    s.phase ≠ .broken ∧ out.1.abandoned = s.abandoned ∧ breaks out.2 = [] := by
  refine ⟨fun hbroken => unbroken (turn.broken hbroken), ?_, ?_⟩
  · cases turn with
    | receive =>
      show (obeyAll c _ _).1.abandoned = _
      rw [obeyAll_frame]
    | complete =>
      simp only [State.complete] at unbroken ⊢
      split at unbroken
      · exact absurd rfl unbroken
      · rw [obeyAll_frame]
    | hear =>
      simp only [State.hear]
      split
      · rw [obeyAll_frame]
      · rfl
    | begin granted => rw [begin_frame]
    | _ => rfl
  · refine List.eq_nil_iff_forall_not_mem.2 fun x hx => unbroken ?_
    obtain ⟨-, rest, left, -, -, rfl⟩ := turn.broke hx
    rfl

/-- As long as the controller has not broken off, there are no books but its own. -/
theorem intact_run (unbroken : (c.run (.initial clock) events).1.phase ≠ .broken) :
    (c.run (.initial clock) events).1.abandoned = none ∧
      breaks (c.run (.initial clock) events).2 = [] := by
  induction events using List.reverseRecOn with
  | nil => exact ⟨rfl, rfl⟩
  | append_singleton events e ih =>
    rw [run_concat] at unbroken ⊢
    obtain ⟨hbefore, habandoned, hbreaks⟩ := (turn_step c _ e).unbroken unbroken
    rw [breaks_append, (ih hbefore).2, hbreaks, habandoned]
    exact ⟨(ih hbefore).1, rfl⟩

/-- What a run leaves in which the controller broke off when it took the end `x` of a pass, after
the events `before`. -/
structure BrokenAt (c : Controller) (clock : Instant) (events before : List Event)
    (x : Completion) : Prop where
  since : ∃ after, events = before ++ .complete :: after
  running : (c.run (.initial clock) before).1.phase = .running
  first : x ∈ (c.run (.initial clock) before).1.completions.head?
  again : retryable x.result
  endless : c.config.backoff.delayFor?
    ((c.run (.initial clock) before).1.ledger.streak x.request.key) = none
  journal : (c.run (.initial clock) events).2 =
    (c.run (.initial clock) before).2 ++ [.brokeOff x.request x.result]
  phase : (c.run (.initial clock) events).1.phase = .broken
  passes : (c.run (.initial clock) events).1.passes = []
  sleepers : (c.run (.initial clock) events).1.sleepers = []
  ledger : (c.run (.initial clock) events).1.ledger = (c.run (.initial clock) before).1.ledger
  abandoned : (c.run (.initial clock) events).1.abandoned =
    some (((c.run (.initial clock) before).1.ledger.release x.request.key).countRetry
      x.request.key)

/-- A run in which the controller broke off did so at the end of one pass. -/
theorem BreaksIn.exists_brokenAt (h : BreaksIn c clock events) :
    ∃ before x, BrokenAt c clock events before x := by
  obtain ⟨before, after, rfl, running, x, hx, again, endless⟩ := h
  obtain ⟨rest, first⟩ : ∃ rest, (c.run (.initial clock) before).1.completions = x :: rest :=
    List.head?_eq_some_iff.1 hx
  have hstep := step_of_endless running first again endless
  -- from there on, only the time and the cluster change
  have hover : (c.step (c.run (.initial clock) before).1 .complete).1.phase.isOver := by
    rw [hstep]
    rfl
  have hemptied : Emptied (c.step (c.run (.initial clock) before).1 .complete).1 := by
    rw [hstep]
    exact fun _ => ⟨rfl, rfl⟩
  obtain ⟨hquiet, cluster, clock', now, hstate, -⟩ := hemptied.unmoved_run (c := c) hover after
  refine ⟨before, x, ⟨after, rfl⟩, running, hx, again, endless, ?_, ?_, ?_, ?_, ?_, ?_⟩
  · rw [run_split, hquiet, List.append_nil, hstep]
  all_goals
    rw [run_split]
    dsimp only
    rw [hstate, hstep]
    rfl

/-- A controller that is closed stays so. -/
theorem Booking.isClosed {out : State × List Entry} (booking : Booking s out)
    (closed : s.phase.isClosed) : out.1.phase.isClosed := by
  cases booking with
  | quiet _ _ _ phase => exact phase.trans closed
  | receive _ _ _ _ phase => exact phase.trans closed
  | fire _ _ _ _ _ _ phase => exact phase.trans closed
  | complete _ _ _ _ _ _ phase => exact phase.trans closed
  | close _ _ phase => exact phase

/-- Only taking the end of a pass breaks a controller off. -/
theorem broken_step {e : Event} (broken : (c.step s e).1.phase = .broken) :
    s.phase = .broken ∨ e = .complete ∧ Breaks c s := by
  by_cases running : s.phase = .running
  · rcases running_step running e (c := c) with hrunning | rfl | hbreaks
    · rw [hrunning] at broken
      cases broken
    · simp only [step, if_pos running] at broken
      cases broken
    · exact .inr hbreaks
  · left
    by_contra unbroken
    have hclosed : s.phase.isClosed := by
      rcases hphase : s.phase with _ | _ | _ | _ <;> simp_all [Phase.isClosed]
    have hafter := (booking_step c s e).isClosed hclosed
    rw [broken] at hafter
    cases hafter

/-- A controller is broken off once its run broke off. -/
theorem broken_iff :
    (c.run (.initial clock) events).1.phase = .broken ↔ BreaksIn c clock events := by
  refine ⟨fun hbroken => ?_, fun h => ?_⟩
  · induction events using List.reverseRecOn with
    | nil => cases hbroken
    | append_singleton events e ih =>
      rw [run_concat] at hbroken
      rcases broken_step hbroken with hbefore | ⟨rfl, hbreaks⟩
      · exact (ih hbefore).concat e
      · exact ⟨events, [], rfl, hbreaks⟩
  · obtain ⟨before, x, hat⟩ := h.exists_brokenAt
    exact hat.phase

/-- The journal has word of it once, if the controller broke off. -/
theorem length_breaks : (breaks (c.run (.initial clock) events).2).length =
    if (c.run (.initial clock) events).1.phase = .broken then 1 else 0 := by
  split
  · rename_i hbroken
    obtain ⟨before, x, hat⟩ := (broken_iff.1 hbroken).exists_brokenAt
    rw [hat.journal, breaks_append, (intact_run (by simp [hat.running])).2]
    rfl
  · rename_i hunbroken
    rw [(intact_run hunbroken).2]
    rfl

/-- Nothing is left to happen in a controller that broke off. -/
theorem dead_of_broken (broken : (c.run (.initial clock) events).1.phase = .broken) :
    (c.run (.initial clock) events).1.passes = [] ∧
      (c.run (.initial clock) events).1.sleepers = [] ∧
      ∀ more, (c.run (c.run (.initial clock) events).1 more).2 = [] := by
  have hover : (c.run (.initial clock) events).1.phase.isOver := by
    rw [broken]
    rfl
  have hemptied : Emptied (c.run (.initial clock) events).1 :=
    Emptied.run (.of_phase (.inl rfl)) events
  exact ⟨(hemptied hover).1, (hemptied hover).2, fun more => (hemptied.unmoved_run hover more).quiet⟩

/-- A controller works until it is closed or breaks off, and no longer. -/
theorem running_iff :
    (c.run (.initial clock) events).1.phase = .running ↔
      .close ∉ events ∧ ¬BreaksIn c clock events := by
  induction events using List.reverseRecOn with
  | nil => simp [run, State.initial, BreaksIn]
  | append_singleton events e ih =>
    rw [run_concat]
    constructor
    · intro running
      have hbefore := (turn_step c _ e).running running
      refine ⟨?_, fun hbreaks => ?_⟩
      · rw [List.mem_append, List.mem_singleton]
        rintro (hclose | rfl)
        · exact (ih.1 hbefore).1 hclose
        · simp only [step, if_pos hbefore] at running
          cases running
      · have hbroken := broken_iff.2 hbreaks
        rw [run_concat] at hbroken
        rw [hbroken] at running
        cases running
    · rintro ⟨hopen, hkept⟩
      rw [List.mem_append, List.mem_singleton, not_or] at hopen
      have hbefore := ih.2 ⟨hopen.1, fun hbreaks => hkept (hbreaks.concat e)⟩
      rcases running_step hbefore e (c := c) with hrunning | rfl | ⟨rfl, hbreaks⟩
      · exact hrunning
      · exact absurd rfl hopen.2
      · exact absurd ⟨events, [], rfl, hbreaks⟩ hkept

/-! ## Delays without an end -/

namespace Endless

/-- Valid settings: all retries are delayed by the longest duration. In floating-point seconds it is
rounded up to `2 ^ 64`, which is no duration any more. -/
def config : Config :=
  { Config.standard with
    reconcile := { ReconcileConfig.standard with backoff := ⟨.longest, .longest, 1⟩ } }

def controller : Controller := .ofConfig config

/-- The only pass of an object fails to fetch it. -/
def failedFetch (key : ObjectKey) : List Event :=
  [.change (.inject ⟨1, none⟩), .notify (.ofChange key), .receive, .begin 0, .resume 0 none,
    .complete]

/-- What comes of it. -/
def outcome (key : ObjectKey) : State × List Entry :=
  controller.run (.initial (.ofUnixSeconds 1792281600)) (failedFetch key)

end Endless

end Controller

end ClusterVitals
