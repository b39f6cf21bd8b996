import ClusterVitals.Proofs.Convergence
import ClusterVitals.Proofs.LostPasses

/-!
# The secret that is watched is looked at again and again

Once something has arrived for the secret that is watched, and for as long as the controller works,
there is always one who will bring up its next pass: the secret is under way, or its timer sleeps,
or the message of its timer waits to be taken. It does not matter what became of its passes, nor
what else arrives. A controller that is not closed works exactly as long as it does not break off,
and with it the rechecks end.

## Shape of the proofs

An idle object for which something has arrived has come to the end of a pass, and the end of a pass
of the secret leaves it a timer: that is `Wakeful`. `Dated` says who carries the message of this
timer. How long a controller works is told by `running_iff`.
-/

namespace ClusterVitals.Controller

open State Ledger

variable {c : Controller} {clock : Instant} {key : ObjectKey} {s : State} {j : List Entry}
  {events : List Event}

/-! ## What brings up the next pass -/

/-- An object that is idle has ended its passes for all that has arrived for it. -/
theorem Booked.ended_of_arrived (h : Booked s j) (idle : ¬s.ledger.inFlight.contains key)
    (arrived : ∃ r ∈ arrivals j, r.key = key) : endings key j ≠ [] := by
  obtain ⟨r, hr, rfl⟩ := arrived
  have hown : arrivals (own r.key j) ≠ [] := by
    refine List.ne_nil_of_mem (a := r) ?_
    rw [arrivals_own]
    exact List.mem_filter.2 ⟨hr, by simp⟩
  intro hnone
  have hnewest := h.newest_of_idle idle
  rw [hnone] at hnewest
  exact hown (List.getLast?_eq_none_iff.1 hnewest)

/-- The timer of an object is there to bring it up: it sleeps and was not stopped, or it has left
the message that the books wait for. -/
def State.Rouses (s : State) (key : ObjectKey) : Prop :=
  ∃ generation, s.ledger.timers[key]? = some generation ∧
    ((∃ t ∈ s.sleepers, t.timer.generation = generation ∧ t.timer.key = key ∧ ¬t.stopped) ∨
      ∃ ring ∈ s.rings, ring.generation = generation ∧ ring.notification.key = key)

theorem Dated.rouses (h : Dated s j) (unbroken : s.phase ≠ .broken)
    (armed : s.ledger.timers[key]?.isSome) : s.Rouses key := by
  obtain ⟨generation, hgeneration⟩ := Option.isSome_iff_exists.1 armed
  obtain ⟨m, hm, rfl, rfl⟩ := h.live unbroken key generation hgeneration
  refine ⟨m.generation, hgeneration, ?_⟩
  rcases mem_coming_cases hm with ⟨t, ht, hlive, rfl⟩ | hm
  · exact .inl ⟨t, ht, rfl, rfl, hlive⟩
  · exact .inr ⟨m, hm, rfl, rfl⟩

/-- A timer that was not stopped leaves its message once it is due. -/
theorem Dated.rings_ring (h : Dated s j) {t : Sleeper} (asleep : t ∈ s.sleepers) (live : ¬t.stopped)
    (due : ringTime t.due ≤ s.now) :
    t.timer.message ∈ (c.step s (.ring t.timer.generation)).1.rings := by
  rcases hfound : s.sleeper? t.timer.generation with _ | x
  · exact absurd (List.find?_eq_none.1 hfound t asleep) (by simp)
  · obtain ⟨hx, hgeneration⟩ := mem_of_sleeper? hfound
    obtain rfl := h.eq_of_sleeper hx asleep hgeneration
    simp only [Controller.step, hfound]
    rw [if_pos ⟨live, due⟩]
    exact List.mem_append_right _ (List.mem_singleton_self _)

/-- The message that the books wait for starts a pass of an idle object. -/
theorem starts_hear {ring : Ring} {rest : List Ring} (running : s.phase = .running)
    (first : s.rings = ring :: rest)
    (current : s.ledger.timers[ring.notification.key]? = some ring.generation)
    (idle : ¬s.ledger.inFlight.contains ring.notification.key) :
    starts (c.step s .hear).2 = [⟨s.ledger.nextSerial, ring.notification⟩] := by
  have hhear : (c.step s .hear).2 = .fired ring :: (State.schedule c { s with
      rings := rest
      ledger := { s.ledger with timers := s.ledger.timers.erase ring.notification.key } }
        ring.notification).2 := by
    simp only [step, running, first, hear, current, fire, if_true]
    rfl
  rw [hhear]
  exact starts_schedule (s := { s with
    rings := rest
    ledger := { s.ledger with timers := s.ledger.timers.erase ring.notification.key } }) idle

/-- Once something has arrived for it, the secret that is watched is under way, or its timer is
there to bring it up. -/
theorem rouses_of_idle (running : (c.run (.initial clock) events).1.phase = .running)
    (arrived : ∃ r ∈ arrivals (c.run (.initial clock) events).2, r.key = c.dispatcher.subject)
    (idle : ¬(c.run (.initial clock) events).1.ledger.inFlight.contains c.dispatcher.subject) :
    (c.run (.initial clock) events).1.Rouses c.dispatcher.subject := by
  have hopen : ¬(c.run (.initial clock) events).1.phase.isClosed := by
    rw [running]
    exact Bool.false_ne_true
  have hended := (booked_run c clock events).ended_of_arrived idle arrived
  have harmed := (wakeful_run c clock events).armed hopen hended idle
  exact (dated_run c clock events).rouses (by simp [running]) harmed

/-! ## The law of rechecks -/

/-- The controller sees to an object: it works, and the object is under way, or its timer is there
to bring it up. -/
def State.Attends (s : State) (key : ObjectKey) : Prop :=
  s.phase = .running ∧ (s.ledger.inFlight.contains key ∨ s.Rouses key)

/-- What holds of the secret that is watched at the end of a run. -/
structure RecheckLaw (c : Controller) (clock : Instant) (events : List Event) (s : State)
    (j : List Entry) : Prop where
  /-- The controller works until it is closed or breaks off, and no longer. -/
  working : s.phase = .running ↔ .close ∉ events ∧ ¬BreaksIn c clock events
  /-- Once something has arrived for the secret, and until the controller is closed, it is seen to
  exactly if the controller has not broken off. -/
  awake : .close ∉ events → (∃ r ∈ arrivals j, r.key = c.dispatcher.subject) →
    (s.Attends c.dispatcher.subject ↔ ¬BreaksIn c clock events)
  /-- While it is under way, and none of its passes ended without a result, there is a pass of it,
  or the end of one that waits to be taken. -/
  underWay : s.phase = .running → ¬LosesIn c clock events c.dispatcher.subject →
    s.ledger.inFlight.contains c.dispatcher.subject →
      s.running c.dispatcher.subject ≠ [] ∨ s.ended c.dispatcher.subject ≠ []
  /-- Its timer leaves the message once it is due. -/
  rings : ∀ t ∈ s.sleepers, t.timer.key = c.dispatcher.subject → ¬t.stopped →
    ringTime t.due ≤ s.now → t.timer.message ∈ (c.step s (.ring t.timer.generation)).1.rings
  /-- The message that the books wait for starts its next pass. -/
  heard : ∀ ring rest, s.phase = .running → s.rings = ring :: rest →
    ring.notification.key = c.dispatcher.subject →
    s.ledger.timers[c.dispatcher.subject]? = some ring.generation →
    ¬s.ledger.inFlight.contains c.dispatcher.subject →
      starts (c.step s .hear).2 = [⟨s.ledger.nextSerial, ring.notification⟩]
  /-- Once the controller has broken off, its passes and timers are gone, and nothing happens in it
  any more. -/
  dead : BreaksIn c clock events →
    s.passes = [] ∧ s.sleepers = [] ∧ ∀ more, (c.run s more).2 = []
  /-- It never breaks off if all delays are durations. -/
  lasting : (∀ failures, (c.config.backoff.delayFor? failures).isSome) → ¬BreaksIn c clock events

/-- In every run, the secret that is watched is never left without a next pass, unless the
controller is closed or breaks off at a delay that is not a duration. -/
theorem recheck_law (c : Controller) (clock : Instant) (events : List Event) :
    RecheckLaw c clock events (c.run (.initial clock) events).1
      (c.run (.initial clock) events).2 := by
  constructor
  case working => exact running_iff
  case awake =>
    intro hopen harrived
    constructor
    · exact fun hattends => (running_iff.1 hattends.1).2
    · intro hkept
      have hrunning := running_iff.2 ⟨hopen, hkept⟩
      exact ⟨hrunning, or_iff_not_imp_left.2 (rouses_of_idle hrunning harrived)⟩
  case underWay =>
    intro hrunning hkept hbusy
    by_contra hgone
    rw [not_or, not_not, not_not] at hgone
    exact hkept ((lost_iff events (by simp [hrunning])).1 ⟨hbusy, hgone.1, hgone.2⟩)
  case rings =>
    intro t ht _ hlive hdue
    exact (dated_run c clock events).rings_ring ht hlive hdue
  case heard =>
    intro ring rest hrunning hfirst hkey hcurrent hidle
    rw [← hkey] at hcurrent hidle
    exact starts_hear hrunning hfirst hcurrent hidle
  case dead => exact fun hbreaks => dead_of_broken (broken_iff.2 hbreaks)
  case lasting => exact not_breaksIn_of_delays

/-- With valid settings, one failed fetch of the secret that is watched ends its rechecks. -/
theorem Endless.recheck_dies :
    let secret := Endless.controller.dispatcher.subject
    let out := Endless.outcome secret
    Endless.config.IsValid ∧ (∃ r ∈ arrivals out.2, r.key = secret) ∧
      .close ∉ Endless.failedFetch secret ∧ ¬out.1.Attends secret ∧
      out.1.completions.isEmpty ∧ out.1.rings = [] ∧ ¬out.1.books.timers.contains secret ∧
      ¬out.1.books.inFlight.contains secret ∧ out.1.sleepers = [] ∧
      ∀ more, (Endless.controller.run out.1 more).2 = [] := by
  have hbroken : (Endless.outcome Endless.controller.dispatcher.subject).1.phase = .broken := by
    decide +kernel
  refine ⟨by decide +kernel, by decide +kernel, by simp [Endless.failedFetch], ?_,
    by decide +kernel, by decide +kernel, by decide +kernel, by decide +kernel, by decide +kernel,
    ?_⟩
  · intro hattends
    rw [State.Attends, hbroken] at hattends
    cases hattends.1
  · unfold Endless.outcome at hbroken ⊢
    exact (dead_of_broken hbroken).2.2

end ClusterVitals.Controller
