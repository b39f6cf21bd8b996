import ClusterVitals.Proofs.Answers
import ClusterVitals.Proofs.BreakingOff
import ClusterVitals.Proofs.Slots
import ClusterVitals.Proofs.TimerGenerations

/-!
# Objects whose pass was lost

The books release an object when the end of its pass is taken, and at nothing else. A pass that dies
leaves no end, so its object stays under way for good: what arrives for it is held back, and no pass
of it is started any more. An object no pass of which was lost is released as soon as its pass has
ended and the end was taken. The next notification for it starts a pass, and the secret that is
watched has a timer then.

## Shape of the proofs

`Handles` says what a turn does to the passes and to their ends. With the lane of an object it tells
where an object can become lost, and that it stays so. `Wakeful` is the invariant for the timer of
the secret that is watched.
-/

namespace ClusterVitals

/-! ## Failures of fetches -/

/-- What went wrong with a fetch. -/
def Answer.error? : Answer → Option Error
  | .pod (.error e) | .secret (.error e) => some e
  | _ => none

namespace Cluster

/-- A fetch fails only if the object does not exist, or could not be fetched. -/
theorem error_answer {c : Cluster} {kind : ObjectKind} {key : ObjectKey} {e : Error}
    (h : (c.answer kind key).2.1.error? = some e) :
    e = .notFound key ∨ ∃ reason, e = .fetch key reason := by
  unfold Cluster.answer at h
  split at h
  · left
    cases kind with
    | pod =>
      rcases hfound : c.pods[key]? with _ | pod <;> simp only [lookup, hfound] at h
      · exact (Option.some.inj h).symm
      · cases h
    | secret =>
      rcases hfound : c.secrets[key]? with _ | secret <;> simp only [lookup, hfound] at h
      · exact (Option.some.inj h).symm
      · cases h
  · right
    cases kind <;> exact ⟨_, (Option.some.inj h).symm⟩

end Cluster

namespace Controller

open State Ledger

variable {c : Controller} {clock : Instant} {key : ObjectKey} {s : State} {j : List Entry}

/-! ## Passes and their ends in a turn -/

/-- The work of passes starts none. -/
theorem starts_of_work {es : List Entry} (work : ∀ e ∈ es, e.isWork) : starts es = [] := by
  refine List.filterMap_eq_nil_iff.2 ?_
  intro e he
  have hwork := work e he
  cases e with
  | started r => cases hwork
  | _ => rfl

/-- What a turn does to passes and ends: an end comes of a pass, and a pass of its start; unless the
controller breaks off, an end goes only when it is taken. -/
structure Handles (s : State) (out : State × List Entry) : Prop where
  ended : ∀ x ∈ out.1.completions, x ∈ s.completions ∨ x.request ∈ requests s.passes
  running : ∀ r ∈ requests out.1.passes, r ∈ requests s.passes ∨ r ∈ starts out.2
  taken : out.1.phase ≠ .broken → ∀ x ∈ s.completions,
    x ∈ out.1.completions ∨ x.request ∈ finishes out.2
  begun : ∀ r ∈ starts out.2, r ∈ requests out.1.passes

namespace Handles

variable {s' : State} {es : List Entry}

/-- No pass ends or is started. -/
theorem still (quiet : starts es = []) (completions : s'.completions = s.completions)
    (passes : requests s'.passes = requests s.passes) : Handles s (s', es) where
  ended x hx := .inl (completions ▸ hx)
  running r hr := .inl (passes ▸ hr)
  taken _ x hx := .inl (completions ▸ hx)
  begun r hr := by
    rw [quiet] at hr
    exact absurd hr List.not_mem_nil

/-- A pass ends without a result. -/
theorem endPass (c : Controller) (s : State) (serial : Nat) :
    Handles s (s.endPass c serial, []) where
  ended _ hx := .inl hx
  running r hr := by
    rw [requests_endPass] at hr
    exact .inl (List.mem_filter.1 hr).1
  taken _ _ hx := .inl hx
  begun _ hr := absurd hr List.not_mem_nil

/-- A pass leaves its result. -/
theorem leaveResult (c : Controller) {s₀ : State} {r : Request} (hr : r ∈ requests s.passes)
    (result : PassResult) (completions : s₀.completions = s.completions)
    (passes : s₀.passes = s.passes) (quiet : starts es = []) :
    Handles s (s₀.leaveResult c r result, es) where
  ended x hx := by
    rcases List.mem_append.1 hx with hx | hx
    · exact .inl (completions ▸ hx)
    · rw [List.mem_singleton.1 hx]
      exact .inr hr
  running x hx := by
    rw [State.leaveResult, requests_endPass, passes] at hx
    exact .inl (List.mem_filter.1 hx).1
  taken _ x hx := .inl (List.mem_append_left _ (completions ▸ hx))
  begun x hx := by
    rw [quiet] at hx
    exact absurd hx List.not_mem_nil

/-- Orders are carried out, perhaps after an end was taken. -/
theorem obeyAll (c : Controller) (s₀ : State) (es : List Entry) (orders : List Order)
    (quiet : starts es = []) (passes : s₀.passes = s.passes)
    (ended : ∀ x ∈ s₀.completions, x ∈ s.completions)
    (taken : ∀ x ∈ s.completions, x ∈ s₀.completions ∨ x.request ∈ finishes es) :
    Handles s ((s₀.obeyAll c orders).1, es ++ orders.map .ofOrder) where
  ended x hx := by
    rw [completions_obeyAll] at hx
    exact .inl (ended x hx)
  running r hr := by
    rw [requests_obeyAll, passes] at hr
    rw [starts_append, quiet, List.nil_append]
    exact List.mem_append.1 hr
  taken _ x hx := by
    rw [completions_obeyAll, finishes_append]
    exact (taken x hx).imp id (List.mem_append_left _)
  begun r hr := by
    rw [starts_append, quiet, List.nil_append] at hr
    rw [requests_obeyAll]
    exact List.mem_append_right _ hr

theorem schedule (c : Controller) (s : State) (n : Notification) : Handles s (s.schedule c n) := by
  have h := obeyAll (s := s) c { s with ledger := (s.ledger.schedule n).1 }
    [.scheduled ⟨s.ledger.nextSerial, n⟩] (s.ledger.schedule n).2 rfl rfl
    (fun _ hx => hx) (fun _ hx => .inl hx)
  rw [← obeyAll_entries c] at h
  exact h

theorem complete (c : Controller) {e : Completion} {rest : List Completion}
    (first : s.completions = e :: rest) :
    Handles s (State.complete c { s with completions := rest } e.request e.result) := by
  have hrest : ∀ x ∈ rest, x ∈ s.completions := fun x hx => first ▸ List.mem_cons_of_mem _ hx
  simp only [State.complete]
  split
  · -- the controller breaks off, and its passes with it
    exact ⟨fun x hx => .inl (hrest x hx), fun _ hr => absurd hr List.not_mem_nil,
      fun hopen => absurd rfl hopen, fun _ hr => absurd hr List.not_mem_nil⟩
  · rename_i l orders events hc
    rw [obeyAll_entries]
    refine obeyAll c _ _ orders ?_ rfl hrest ?_
    · exact filterMap_logged (f := Entry.start?) (fun _ => rfl) events
    · intro x hx
      rw [first] at hx
      rcases List.mem_cons.1 hx with rfl | hx
      · exact .inr List.mem_cons_self
      · exact .inl hx

theorem hear (c : Controller) (s : State) (ring : Ring) : Handles s (s.hear c ring) := by
  simp only [State.hear]
  split
  · rw [obeyAll_entries]
    exact obeyAll c _ [.fired ring, .scheduled _] _ rfl rfl (fun _ hx => hx) fun _ hx => .inl hx
  · exact still rfl rfl rfl

theorem begin (c : Controller) {r : Request} (hr : r ∈ requests s.passes) :
    Handles s (s.begin c r) := by
  have hquiet : starts (s.begin c r).2 = [] := starts_of_work fun _ he => isWork_of_mem_begin c he
  unfold State.begin at hquiet ⊢
  split
  · exact endPass c s r.serial
  · rename_i hlimit
    rw [if_neg hlimit] at hquiet
    dsimp only at hquiet ⊢
    split
    · rename_i hneed
      rw [hneed] at hquiet
      exact leaveResult c hr _ rfl rfl hquiet
    · rename_i kind hneed
      rw [hneed] at hquiet
      exact still hquiet rfl (requests_setStage _ _ _)

end Handles

theorem Turn.handles {out : State × List Entry} (turn : Turn c s out) : Handles s out := by
  cases turn with
  | @receive n rest running first =>
    have h := Handles.schedule c { s with queue := rest } n
    exact ⟨h.ended, h.running, h.taken, h.begun⟩
  | @complete e rest running first => exact .complete c first
  | @hear ring rest running first =>
    have h := Handles.hear c { s with rings := rest } ring
    exact ⟨h.ended, h.running, h.taken, h.begun⟩
  | begin granted => exact .begin c (List.mem_map_of_mem granted)
  | @resume r kind since ready allowed fetching elapsed =>
    exact .leaveResult c (List.mem_map_of_mem fetching) _ rfl rfl
      (starts_of_work fun _ he => isWork_of_mem_resume c he)
  | expire fetching late => exact .leaveResult c (List.mem_map_of_mem fetching) _ rfl rfl rfl
  | drop serial => exact .endPass c s serial
  | _ => exact .still rfl rfl rfl

/-! ## Lost passes -/

theorem running_eq_nil_iff : s.running key = [] ↔ ∀ r ∈ requests s.passes, r.key ≠ key := by
  simp [State.running]

theorem ended_eq_nil_iff : s.ended key = [] ↔ ∀ x ∈ s.completions, x.request.key ≠ key := by
  simp [State.ended]

/-- The books hold an object under way, but there is no pass of it, and no end of one. -/
structure State.Lost (s : State) (key : ObjectKey) : Prop where
  busy : s.ledger.inFlight.contains key
  unfinished : s.running key = []
  unended : s.ended key = []

/-- An event at which the pass of an object ends and leaves no result. -/
structure Loses (c : Controller) (s : State) (key : ObjectKey) (e : Event) : Prop where
  running : s.running key ≠ []
  unfinished : (c.step s e).1.running key = []
  unended : (c.step s e).1.ended key = []

namespace Regular

variable {p : Pass}

/-- The serial of a pass is that of no other one. -/
theorem pass?_of_mem (h : Regular c s j) (hp : p ∈ s.passes) :
    s.pass? p.request.serial = some p := by
  rcases hfound : s.pass? p.request.serial with _ | q
  · exact absurd (List.find?_eq_none.1 hfound p hp) (by simp)
  · have hserial : q.request.serial = p.request.serial := by simpa using List.find?_some hfound
    exact congrArg some (h.booked.pass_eq_of_serial h.numbered (mem_of_pass? hfound) hp hserial)

/-- An event that ends a pass and does nothing else. -/
theorem loses_of_endPass (h : Regular c s j) (hp : p ∈ s.passes) {e : Event}
    (ends : (c.step s e).1 = s.endPass c p.request.serial) : Loses c s p.request.key e := by
  have hrunning : p.request ∈ s.running p.request.key :=
    List.mem_filter.2 ⟨List.mem_map_of_mem hp, by simp⟩
  obtain ⟨lane, hfollows, -⟩ := h.booked p.request.key
  obtain ⟨hended, hone⟩ := hfollows.of_mem_running hrunning
  constructor
  case running => exact List.ne_nil_of_mem hrunning
  case unfinished =>
    rw [ends, State.running, requests_endPass, List.filter_comm]
    show List.filter _ (s.running p.request.key) = []
    rw [hone]
    simp
  case unended =>
    rw [ends]
    exact hended

/-- A pass that starts when its deadline cannot be told is lost. -/
theorem loses_of_begin {r : Request} (h : Regular c s j) (granted : ⟨r, .granted⟩ ∈ s.passes)
    (late : timeLimit ≤ s.now + c.config.timeout.nanos) : Loses c s r.key (.begin r.serial) := by
  refine h.loses_of_endPass granted ?_
  simp only [Controller.step, h.pass?_of_mem granted, State.begin]
  rw [if_pos late]

end Regular

/-- Where no end of a pass of an object waits, none is taken. -/
theorem finishes_of_unended (unended : s.ended key = []) (e : Event) :
    finishes (own key (c.step s e).2) = [] := by
  rw [finishes_eq_endings]
  rcases (booking_step c s e).endings with hnone | ⟨x, hx, hkey, -⟩
  · rw [hnone]
    rfl
  · exact absurd hkey (ended_eq_nil_iff.1 unended x hx)

/-- Without an end that is taken, an object that is under way stays so, and is not started. -/
theorem Booked.busy_step (h : Booked s j) (busy : s.ledger.inFlight.contains key) (e : Event)
    (untaken : finishes (own key (c.step s e).2) = []) :
    (c.step s e).1.ledger.inFlight.contains key ∧ starts (own key (c.step s e).2) = [] := by
  obtain ⟨lane, hfollows, hhistory⟩ := h key
  obtain ⟨lane', hmoves, hfollows'⟩ := h.step c e hfollows hhistory
  rw [hfollows.books.busy] at busy
  rw [hfollows'.books.busy]
  rcases hmoves with ⟨rfl, hnone⟩ | hstep
  · rw [hnone]
    exact ⟨busy, rfl⟩
  · generalize own key (c.step s e).2 = es at hstep untaken
    cases hstep with
    | enter => cases busy
    | hold => exact ⟨rfl, rfl⟩
    | follow => cases untaken
    | rest => cases untaken

/-- An object that is lost stays so, and no pass of it is started. -/
theorem Booked.lost_step (h : Booked s j) (lost : s.Lost key) (e : Event) :
    (c.step s e).1.Lost key ∧ starts (own key (c.step s e).2) = [] := by
  have hhandles := (turn_step c s e).handles
  obtain ⟨hbusy, hstarts⟩ := h.busy_step lost.busy e (finishes_of_unended lost.unended e)
  have hrunning := running_eq_nil_iff.1 lost.unfinished
  have hunstarted : ∀ r ∈ starts (c.step s e).2, r.key ≠ key := by
    rw [starts_own] at hstarts
    simpa using hstarts
  refine ⟨⟨hbusy, running_eq_nil_iff.2 ?_, ended_eq_nil_iff.2 ?_⟩, hstarts⟩
  · intro r hr
    exact (hhandles.running r hr).elim (hrunning r) (hunstarted r)
  · intro x hx
    exact (hhandles.ended x hx).elim (ended_eq_nil_iff.1 lost.unended x) (hrunning x.request)

/-- An object that is lost stays so for good. -/
theorem Booked.lost_run (h : Booked s j) (lost : s.Lost key) (events : List Event) :
    (c.run s events).1.Lost key ∧ starts (own key (c.run s events).2) = [] := by
  induction events generalizing s j with
  | nil => exact ⟨lost, rfl⟩
  | cons e rest ih =>
    obtain ⟨hlost, hstarts⟩ := h.lost_step lost e (c := c)
    obtain ⟨hlost', hstarts'⟩ := ih (h.keeps c e) hlost
    refine ⟨hlost', ?_⟩
    show starts (own key ((c.step s e).2 ++ (c.run (c.step s e).1 rest).2)) = []
    rw [own_append, starts_append, hstarts, hstarts']
    rfl

/-- An object whose pass ends without a result is lost. -/
theorem Booked.lost_of_loses (h : Booked s j) {e : Event} (loses : Loses c s key e) :
    (c.step s e).1.Lost key := by
  obtain ⟨lane, hfollows, -⟩ := h key
  obtain ⟨r, hr⟩ := List.exists_mem_of_ne_nil _ loses.running
  have hbusy : s.ledger.inFlight.contains key := by
    rw [hfollows.books.busy, hfollows.current_of_mem (List.mem_append_right _ hr)]
    rfl
  have huntaken := finishes_of_unended (c := c) (hfollows.of_mem_running hr).1 e
  exact ⟨(h.busy_step hbusy e huntaken).1, loses.unfinished, loses.unended⟩

/-- An object gets lost at an event at which its pass ends without a result. -/
theorem Booked.loses_of_lost (h : Booked s j) {e : Event}
    (unbroken : (c.step s e).1.phase ≠ .broken) (before : ¬s.Lost key)
    (after : (c.step s e).1.Lost key) : Loses c s key e := by
  have hhandles := (turn_step c s e).handles
  refine ⟨fun hrunning => before ?_, after.unfinished, after.unended⟩
  obtain ⟨lane, hfollows, hhistory⟩ := h key
  obtain ⟨lane', hmoves, hfollows'⟩ := h.step c e hfollows hhistory
  have hstarts : starts (own key (c.step s e).2) = [] := by
    rw [starts_own]
    have hrunning' := running_eq_nil_iff.1 after.unfinished
    simpa using fun r hr => hrunning' r (hhandles.begun r hr)
  have hbusy' := after.busy
  rw [hfollows'.books.busy] at hbusy'
  -- nothing was started, and the object is under way still, so no end of it was taken
  have hbusy : lane.current.isSome ∧ finishes (own key (c.step s e).2) = [] := by
    rcases hmoves with ⟨rfl, hnone⟩ | hstep
    · rw [hnone]
      exact ⟨hbusy', rfl⟩
    · generalize own key (c.step s e).2 = es at hstep hstarts
      cases hstep with
      | enter => cases hstarts
      | hold => exact ⟨rfl, rfl⟩
      | follow => cases hstarts
      | rest => cases hbusy'
  have huntaken : ∀ r ∈ finishes (c.step s e).2, r.key ≠ key := by
    have hnone := hbusy.2
    rw [finishes_own] at hnone
    simpa using hnone
  refine ⟨hfollows.books.busy.trans hbusy.1, hrunning, ended_eq_nil_iff.2 ?_⟩
  intro x hx
  exact (hhandles.taken unbroken x hx).elim (ended_eq_nil_iff.1 after.unended x)
    (huntaken x.request)

/-! ## The timer of the secret that is watched -/

/-- How a pass of the secret that is watched ends: well, and with another look after the recheck
interval, or with a failure that is worth another try. -/
structure Recurs (c : Controller) (result : PassResult) : Prop where
  another : ∀ outcome, result = .ok outcome →
    outcome.requeueAfter = some c.dispatcher.recheckInterval
  again : ∀ e, result = .error e → e.isRetryable

theorem Recurs.of_error {e : Error} (again : e.isRetryable) : Recurs c (.error e) where
  another _ h := by cases h
  again _ h := by
    cases h
    exact again

theorem Recurs.of_requeue : Recurs c (.ok (.requeue c.dispatcher.recheckInterval)) where
  another _ h := by
    cases h
    rfl
  again _ h := by cases h

/-- Such an end asks for a timer. -/
theorem Recurs.wakes {r : Request} {result : PassResult} (h : Recurs c result) :
    (wakeUp? r result).isSome := by
  rcases result with e | outcome
  · simp [wakeUp?, h.again e rfl]
  · simp [wakeUp?, h.another outcome rfl]

theorem recurs_certificatePlan {now : Instant} {late : Error} {allowed : Option Nat}
    {found : Except Error Secret} (again : late.isRetryable)
    (failure : ∀ e, found = .error e → e.isNotFound ∨ e.isRetryable) :
    Recurs c (certificatePlan key c.dispatcher.recheckInterval now late allowed found).result := by
  rcases found with e | secret
  · by_cases hnotFound : e.isNotFound
    · simp only [certificatePlan, hnotFound, if_true]
      exact .of_requeue
    · simp only [certificatePlan, hnotFound]
      exact .of_error ((failure e rfl).resolve_left hnotFound)
  · by_cases hcut : (beforeDeadline allowed (secretSteps key now secret)).2
    · simp only [certificatePlan, hcut, if_true]
      exact .of_error again
    · simp only [certificatePlan, hcut]
      exact .of_requeue

/-- What is kept of the secret that is watched: the ends of its passes ask for timers, and once an
end was taken, it has a timer or is under way. -/
structure Wakeful (c : Controller) (s : State) (j : List Entry) : Prop where
  asking : ∀ x ∈ s.completions, x.request.key = c.dispatcher.subject →
    (wakeUp? x.request x.result).isSome
  armed : ¬s.phase.isClosed → endings c.dispatcher.subject j ≠ [] →
    ¬s.ledger.inFlight.contains c.dispatcher.subject →
      s.ledger.timers[c.dispatcher.subject]?.isSome

theorem wakeful_initial (c : Controller) (clock : Instant) : Wakeful c (.initial clock) [] where
  asking _ hx := absurd hx List.not_mem_nil
  armed _ h := absurd rfl h

theorem not_isPod_subject (c : Controller) : ¬c.IsPod c.dispatcher.subject := by
  intro hpod
  rw [IsPod, Dispatcher.route, if_pos rfl] at hpod
  cases hpod

/-- How the ends of passes of the secret that is watched come up. -/
theorem Orderly.recurs {out : State × List Entry} (h : Orderly c s) (turn : Turn c s out)
    {x : Completion} (hx : x ∈ out.1.completions) (hkey : x.request.key = c.dispatcher.subject) :
    x ∈ s.completions ∨ Recurs c x.result := by
  have hpod : ¬c.IsPod x.request.key := hkey ▸ c.not_isPod_subject
  rcases turn.completion hx with hx | ⟨kind, since, ready, allowed, hfetching, -, -, hresult⟩ |
      hnone | hlate
  · exact .inl hx
  · right
    have hneed := h.needed _ hfetching kind ⟨since, ready, rfl⟩
    obtain rfl := need_of_not_pod (n := x.request.notification) hpod hneed
    obtain ⟨found, hanswer⟩ := s.cluster.answer_secret x.request.key
    rw [hresult, planOf, hanswer]
    refine recurs_certificatePlan rfl ?_
    intro e he
    have hfailed : (s.cluster.answer .secret x.request.key).2.1.error? = some e := by
      rw [hanswer, he]
      rfl
    rcases Cluster.error_answer hfailed with rfl | ⟨reason, rfl⟩
    · exact .inl rfl
    · exact .inr rfl
  · -- something is always fetched for it
    rw [Dispatcher.need, show x.request.notification.key = _ from hkey, Dispatcher.route,
      if_pos rfl] at hnone
    cases hnone
  · right
    rw [hlate]
    exact .of_error rfl

/-- An object for which something arrives is under way. -/
theorem Booked.busy_of_arrival (h : Booked s j) {e : Event} {r : Request}
    (arrived : r ∈ arrivals (c.step s e).2) :
    (c.step s e).1.ledger.inFlight.contains r.key := by
  obtain ⟨lane, hfollows, hhistory⟩ := h r.key
  obtain ⟨lane', hmoves, hfollows'⟩ := h.step c e hfollows hhistory
  have hown : r ∈ arrivals (own r.key (c.step s e).2) := by
    rw [arrivals_own]
    exact List.mem_filter.2 ⟨arrived, by simp⟩
  rw [hfollows'.books.busy]
  rcases hmoves with ⟨rfl, hnone⟩ | hstep
  · rw [hnone] at hown
    exact absurd hown List.not_mem_nil
  · generalize own r.key (c.step s e).2 = es at hstep hown
    cases hstep with
    | enter => rfl
    | hold => rfl
    | follow => rfl
    | rest => exact absurd hown List.not_mem_nil

/-- What becomes of the timer of an object in a turn that does not close the controller. It stays as
it is, or something arrives for the object, or the end of a pass of the object is taken. -/
theorem Booking.timer {s' : State} {es : List Entry} (h : Booking s (s', es))
    (unclosed : ¬s'.phase.isClosed) (key : ObjectKey) :
    ¬s.phase.isClosed ∧
      ((Controller.endings key es = [] ∧ s'.ledger.timers[key]? = s.ledger.timers[key]?) ∨
        (∃ r ∈ arrivals es, r.key = key) ∨
        ∃ x ∈ s.completions, x.request.key = key ∧
          ((wakeUp? x.request x.result).isSome → s'.ledger.timers[key]?.isSome)) := by
  have hnotes {timers : Std.ExtTreeMap ObjectKey Nat} (h : s'.ledger.notes.timers = timers) :
      s'.ledger.timers[key]? = timers[key]? := congrArg (·[key]?) h
  have hunended (h : Controller.endings key (news es) = []) : Controller.endings key es = [] := by
    rwa [endings_news] at h
  cases h with
  | quiet news notes messages phase =>
    refine ⟨phase ▸ unclosed, .inl ⟨hunended (by rw [news]; rfl), ?_⟩⟩
    exact hnotes (congrArg Notes.timers notes)
  | receive n news notes messages phase =>
    refine ⟨phase ▸ unclosed, .inl ⟨hunended (by rw [news]; rfl), ?_⟩⟩
    exact hnotes (congrArg Notes.timers notes)
  | fire ring left current news notes messages phase =>
    refine ⟨phase ▸ unclosed, ?_⟩
    by_cases hkey : ring.notification.key = key
    · -- the timer is forgotten, and its notification arrives
      refine .inr (.inl ⟨⟨s.ledger.nextSerial, ring.notification⟩, ?_, hkey⟩)
      rw [← arrivals_news, news]
      exact List.mem_singleton_self _
    · refine .inl ⟨hunended (by rw [news]; rfl), ?_⟩
      rw [hnotes (congrArg Notes.timers notes)]
      show (s.ledger.timers.erase ring.notification.key)[key]? = _
      rw [Std.ExtTreeMap.getElem?_erase, if_neg (by simpa using hkey)]
  | complete x left running news notes messages phase =>
    refine ⟨phase ▸ unclosed, ?_⟩
    have htimers := hnotes (congrArg Notes.timers notes)
    rw [Notes.getElem?_timers_settle] at htimers
    by_cases hkey : x.request.key = key
    · refine .inr (.inr ⟨x, left, hkey, fun hwake => ?_⟩)
      rw [htimers, if_pos ⟨hkey, hwake⟩]
      rfl
    · rw [if_neg fun h => hkey h.1] at htimers
      refine .inl ⟨hunended ?_, htimers⟩
      rw [news]
      exact List.filter_cons_of_neg (by simpa using hkey)
  | close notes messages phase => exact absurd phase unclosed

theorem Wakeful.step (h : Wakeful c s j) (regular : Regular c s j) (e : Event) :
    Wakeful c (c.step s e).1 (j ++ (c.step s e).2) := by
  constructor
  case asking =>
    intro x hx hkey
    exact (regular.orderly.recurs (turn_step c s e) hx hkey).elim (h.asking x · hkey) Recurs.wakes
  case armed =>
    intro hopen hended hidle
    obtain ⟨hbefore, ⟨hunended, htimer⟩ | ⟨r, hr, hkey⟩ | ⟨x, hx, hkey, hwake⟩⟩ :=
      (booking_step c s e).timer hopen c.dispatcher.subject
    · -- the secret was idle before, with the same timer
      rw [endings_append, hunended, List.append_nil] at hended
      rw [htimer]
      exact h.armed hbefore hended (regular.idle_of_unended e hidle hunended)
    · rw [← hkey] at hidle
      exact absurd (regular.booked.busy_of_arrival hr) hidle
    · exact hwake (h.asking x hx hkey)

theorem wakeful_run (c : Controller) (clock : Instant) (events : List Event) :
    Wakeful c (c.run (.initial clock) events).1 (c.run (.initial clock) events).2 := by
  have hrun := run_of_nil c (fun s j => Regular c s j ∧ Wakeful c s j)
    (fun _ _ e h => ⟨h.1.step e, h.2.step h.1 e⟩) (.initial clock) events
    ⟨regular_initial c clock, wakeful_initial c clock⟩
  exact hrun.2

/-! ## The law of release -/

/-- In a run, a pass of an object ended without a result. -/
def LosesIn (c : Controller) (clock : Instant) (events : List Event) (key : ObjectKey) : Prop :=
  ∃ before e after, events = before ++ e :: after ∧
    Loses c (c.run (.initial clock) before).1 key e

/-- Unless the controller breaks off, an object is lost exactly if a pass of it ended without a
result. -/
theorem lost_iff (events : List Event)
    (unbroken : (c.run (.initial clock) events).1.phase ≠ .broken) :
    (c.run (.initial clock) events).1.Lost key ↔ LosesIn c clock events key := by
  constructor
  case mp =>
    -- back to the event at which the object got lost
    intro hlost
    induction events using List.reverseRecOn with
    | nil => exact absurd hlost.busy (by simp [run, State.initial, Ledger.empty])
    | append_singleton events e ih =>
      rw [run_concat] at unbroken hlost
      by_cases hbefore : (c.run (.initial clock) events).1.Lost key
      · have hunbroken : (c.run (.initial clock) events).1.phase ≠ .broken :=
          fun hbroken => unbroken ((turn_step c _ e).broken hbroken)
        obtain ⟨before, x, after, rfl, hloses⟩ := ih hunbroken hbefore
        exact ⟨before, x, after ++ [e], by rw [List.append_assoc, List.cons_append], hloses⟩
      · exact ⟨events, e, [], rfl,
          (booked_run c clock events).loses_of_lost unbroken hbefore hlost⟩
  case mpr =>
    rintro ⟨before, e, after, rfl, hloses⟩
    have hbooked := booked_run c clock before
    rw [run_split]
    exact ((hbooked.keeps c e).lost_run (hbooked.lost_of_loses hloses) after).1

/-- A notification for an object that is not under way starts a pass. -/
theorem starts_schedule {n : Notification} (idle : ¬s.ledger.inFlight.contains n.key) :
    starts (s.schedule c n).2 = [⟨s.ledger.nextSerial, n⟩] := by
  show starts (obeyAll c _ (s.ledger.schedule n).2).2 = _
  rw [obeyAll_entries, schedule_of_free idle]
  rfl

/-- What holds of an object at the end of a run. -/
structure ReleaseLaw (c : Controller) (clock : Instant) (events : List Event) (key : ObjectKey)
    (s : State) (j : List Entry) : Prop where
  /-- The object is lost if a pass of it ended without a result, and only then. -/
  lost_iff : s.phase ≠ .broken → (s.Lost key ↔ LosesIn c clock events key)
  /-- A lost object stays lost however the run goes on, and no pass of it is started. -/
  wedged : s.Lost key → ∀ more, (c.run s more).1.Lost key ∧ starts (own key (c.run s more).2) = []
  /-- If each of its passes that ended left a result, the object is released once the last end was
  taken, and then nothing is held back for it. -/
  released : s.phase ≠ .broken → ¬LosesIn c clock events key → s.running key = [] →
    s.ended key = [] → ¬s.ledger.inFlight.contains key ∧ s.ledger.pending[key]? = none
  /-- The next notification for an object that is released starts a pass. -/
  started : ¬s.ledger.inFlight.contains key → ∀ n rest, s.phase = .running → s.queue = n :: rest →
    n.key = key → starts (c.step s .receive).2 = [⟨s.ledger.nextSerial, n⟩]
  /-- While it is released, the secret that is watched has a timer whose message is still to come,
  once an end of a pass of it was taken. -/
  awake : key = c.dispatcher.subject → s.phase = .running → endings key j ≠ [] →
    ¬s.ledger.inFlight.contains key → ∃ m ∈ s.coming, m.notification.key = key ∧
      s.ledger.timers[key]? = some m.generation

/-- In every run, an object is released when its pass ends, unless the pass was lost. -/
theorem release_law (c : Controller) (clock : Instant) (events : List Event) (key : ObjectKey) :
    ReleaseLaw c clock events key (c.run (.initial clock) events).1
      (c.run (.initial clock) events).2 := by
  have hbooked := booked_run c clock events
  constructor
  case lost_iff => exact lost_iff events
  case wedged => exact fun hlost more => hbooked.lost_run hlost more
  case released =>
    intro hunbroken hkept hrunning hended
    have hidle : ¬(c.run (.initial clock) events).1.ledger.inFlight.contains key :=
      fun hbusy => hkept ((lost_iff events hunbroken).1 ⟨hbusy, hrunning, hended⟩)
    refine ⟨hidle, ?_⟩
    rcases hheld : (c.run (.initial clock) events).1.ledger.pending[key]? with _ | held
    · rfl
    · exact absurd ((run_exclusive c clock events).held_back key held hheld).1 hidle
  case started =>
    rintro hidle n rest hphase hqueue rfl
    set s := (c.run (.initial clock) events).1
    have hreceive : (c.step s .receive).2 =
        .received n :: (State.schedule c { s with queue := rest } n).2 := by
      simp only [step, hphase, hqueue]
      rfl
    rw [hreceive]
    exact starts_schedule (s := { s with queue := rest }) hidle
  case awake =>
    rintro rfl hphase hended hidle
    have hopen : ¬(c.run (.initial clock) events).1.phase.isClosed := by
      rw [hphase]
      exact Bool.false_ne_true
    obtain ⟨g, hg⟩ := Option.isSome_iff_exists.1
      ((wakeful_run c clock events).armed hopen hended hidle)
    obtain ⟨m, hm, rfl, hkey⟩ := (dated_run c clock events).live (by rw [hphase]; simp) _ g hg
    exact ⟨m, hm, hkey, hg⟩

end Controller

end ClusterVitals
