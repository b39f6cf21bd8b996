import ClusterVitals.Proofs.Failures
import ClusterVitals.Proofs.PodPasses

/-!
# Timers of pods

The timer of a pod is armed when a pass for the pod fails with an error that is worth another try,
and stays armed until its message is taken. The books note a failure of the pod as long as the last
pass that ended has failed so. The timer outlives the failure when another pass ends before its
message is taken.
-/

namespace ClusterVitals.Controller

open State

/-! ## What the books hold of a pod -/

/-- The books of failures and timers of a pod, and the messages of its timer, are as the journal
tells. -/
structure Timed (key : ObjectKey) (s : State) (j : List Entry) : Prop where
  failure : s.ledger.failures[key]?.isSome = (failing key j).isSome
  armed : s.phase.isClosed = false → s.ledger.timers[key]?.isSome = (awaited key j).isSome
  closed : s.phase.isClosed → s.ledger.timers[key]? = none
  dated : ∀ generation, s.ledger.timers[key]? = some generation →
    generation ≤ s.ledger.lastGeneration
  sent : ∀ m ∈ s.messages, m.generation ≤ s.ledger.lastGeneration
  /-- The message of the timer brings up the notification of the pass that failed. -/
  message : ∀ m ∈ s.messages, s.ledger.timers[key]? = some m.generation →
    ∃ r, awaited key j = some r ∧ m.notification = r.notification
  change : ∀ r, awaited key j = some r → r.key = key ∧ r.kind = .changed

theorem timed_initial (key : ObjectKey) (clock : Instant) : Timed key (.initial clock) [] where
  failure := by simp [State.initial, Ledger.empty, failing, standing]
  armed _ := by simp [State.initial, Ledger.empty, awaited, standing]
  closed h := by cases h
  dated := by simp [State.initial, Ledger.empty]
  sent := by simp [State.initial, messages]
  message := by simp [State.initial, messages]
  change r hr := by cases hr

namespace Timed

variable {key : ObjectKey} {s s' : State} {j es : List Entry}

/-- What is noted of other objects does not matter. -/
theorem congr (h : Timed key s j)
    (failure : s'.ledger.failures[key]? = s.ledger.failures[key]?)
    (timer : s'.ledger.timers[key]? = s.ledger.timers[key]?)
    (last : s.ledger.lastGeneration ≤ s'.ledger.lastGeneration)
    (messages : ∀ m ∈ s'.messages, m ∈ s.messages ∨
      s.ledger.lastGeneration < m.generation ∧ m.generation ≤ s'.ledger.lastGeneration)
    (phase : s'.phase.isClosed = s.phase.isClosed) (failing : failing key (j ++ es) = failing key j)
    (awaited : awaited key (j ++ es) = awaited key j) : Timed key s' (j ++ es) := by
  constructor
  case failure => rw [failure, failing, h.failure]
  case armed =>
    intro hopen
    rw [timer, awaited, h.armed (phase ▸ hopen)]
  case closed =>
    intro hclosed
    rw [timer, h.closed (phase ▸ hclosed)]
  case dated =>
    intro generation hgeneration
    exact Nat.le_trans (h.dated generation (timer ▸ hgeneration)) last
  case sent =>
    intro m hm
    rcases messages m hm with hm | ⟨-, hle⟩
    · have hsent := h.sent m hm
      omega
    · exact hle
  case message =>
    intro m hm hcurrent
    rw [timer] at hcurrent
    rw [awaited]
    rcases messages m hm with hm | ⟨hlt, -⟩
    · exact h.message m hm hcurrent
    · -- a message that is new is of a later timer than the one that is armed
      have hle := h.dated _ hcurrent
      omega
  case change => exact fun r hr => h.change r (awaited ▸ hr)

/-- Without a timer, only what the journal tells of failures and messages matters. -/
theorem of_unarmed (h : Timed key s j) (failure : s'.ledger.failures[key]?.isSome =
      (failing key (j ++ es)).isSome)
    (timer : s'.ledger.timers[key]? = none)
    (last : s'.ledger.lastGeneration = s.ledger.lastGeneration)
    (messages : ∀ m ∈ s'.messages, m ∈ s.messages)
    (armed : s'.phase.isClosed = false → awaited key (j ++ es) = none)
    (change : ∀ r, awaited key (j ++ es) = some r → r.key = key ∧ r.kind = .changed) :
    Timed key s' (j ++ es) := by
  constructor
  case failure => exact failure
  case armed =>
    intro hopen
    rw [timer, armed hopen]
    rfl
  case closed => exact fun _ => timer
  case dated => simp [timer]
  case sent => exact fun m hm => last ▸ h.sent m (messages m hm)
  case message => simp [timer]
  case change => exact change

/-- A pass of the pod has ended, and no timer was armed for it. -/
theorem finish (h : Timed key s j) {r : Request} {result : PassResult} (own : r.key = key)
    (lasting : ¬retryable result) (asleep : wakeUp? r result = none)
    (news : news es = [.completed r result])
    (notes : s'.ledger.notes = s.ledger.notes.settle r result)
    (messages : ∀ m ∈ s'.messages, m ∈ s.messages)
    (phase : s'.phase.isClosed = s.phase.isClosed) : Timed key s' (j ++ es) := by
  rw [Notes.settle_of_none _ asleep, Notes.countFailure_of_lasting _ lasting] at notes
  have hfailures : s'.ledger.failures = s.ledger.failures.erase r.key :=
    congrArg Notes.failures notes
  have htimers : s'.ledger.timers = s.ledger.timers := congrArg Notes.timers notes
  have hlast : s'.ledger.lastGeneration = s.ledger.lastGeneration :=
    congrArg Notes.lastGeneration notes
  have hfailing : failing key (j ++ es) = none :=
    standing_of_set (setsFailing_of_not_news _) (by simp [news, setsFailing, own, lasting])
  have hawaited : awaited key (j ++ es) = awaited key j :=
    standing_of_quiet (setsAwaited_of_not_news _) (by simp [news, setsAwaited, lasting])
  constructor
  case failure => simp [hfailing, hfailures, own]
  case armed =>
    intro hopen
    rw [hawaited, htimers, h.armed (phase ▸ hopen)]
  case closed => exact fun hclosed => by rw [htimers, h.closed (phase ▸ hclosed)]
  case dated => exact htimers ▸ hlast ▸ h.dated
  case sent => exact fun m hm => hlast ▸ h.sent m (messages m hm)
  case message =>
    intro m hm hcurrent
    rw [htimers] at hcurrent
    rw [hawaited]
    exact h.message m (messages m hm) hcurrent
  case change => exact hawaited ▸ h.change

/-- A pass of the pod has failed, and a timer was armed for another try. -/
theorem retry (h : Timed key s j) {r : Request} {result : PassResult} (own : r.key = key)
    (kind : r.kind = .changed) (again : retryable result) (news : news es = [.completed r result])
    (notes : s'.ledger.notes = s.ledger.notes.settle r result)
    (messages : ∀ m ∈ s'.messages, m ∈ s.messages ∨
      m.generation = s.ledger.lastGeneration + 1 ∧ m.notification = r.notification)
    (phase : s'.phase.isClosed = false) : Timed key s' (j ++ es) := by
  rw [Notes.settle_of_some _ (wakeUp?_of_retryable again),
    Notes.countFailure_of_retryable _ again] at notes
  have hfailures : s'.ledger.failures[key]?.isSome := by
    rw [show s'.ledger.failures = _ from congrArg Notes.failures notes, own]
    exact congrArg Option.isSome Std.ExtTreeMap.getElem?_insert_self
  have htimer : s'.ledger.timers[key]? = some (s.ledger.lastGeneration + 1) := by
    rw [show s'.ledger.timers = _ from congrArg Notes.timers notes, own]
    exact Std.ExtTreeMap.getElem?_insert_self
  have hlast : s'.ledger.lastGeneration = s.ledger.lastGeneration + 1 :=
    congrArg Notes.lastGeneration notes
  have hfailing : failing key (j ++ es) = some r :=
    standing_of_set (setsFailing_of_not_news _) (by simp [news, setsFailing, own, again])
  have hawaited : awaited key (j ++ es) = some r :=
    standing_of_set (setsAwaited_of_not_news _) (by simp [news, setsAwaited, own, again])
  constructor
  case failure =>
    rw [hfailing, hfailures]
    rfl
  case armed =>
    intro _
    rw [hawaited, htimer]
    rfl
  case closed =>
    intro hclosed
    rw [phase] at hclosed
    cases hclosed
  case dated =>
    intro generation hgeneration
    rw [htimer] at hgeneration
    have heq := Option.some.inj hgeneration
    omega
  case sent =>
    intro m hm
    rw [hlast]
    rcases messages m hm with hm | ⟨hgeneration, -⟩
    · have hle := h.sent m hm
      omega
    · omega
  case message =>
    intro m hm hcurrent
    refine ⟨r, hawaited, ?_⟩
    rcases messages m hm with hm | ⟨-, hnotification⟩
    · -- the messages that were there are of earlier timers
      have hle := h.sent m hm
      rw [htimer] at hcurrent
      have heq := Option.some.inj hcurrent
      omega
    · exact hnotification
  case change =>
    intro r' hr'
    rw [hawaited] at hr'
    rw [← Option.some.inj hr']
    exact ⟨own, kind⟩

/-- The end of a pass of the pod is taken. -/
theorem complete (h : Timed key s j) {e : Completion} (own : e.request.key = key)
    (ends : PodEnd e.request e.result) (running : s.phase.isClosed = false)
    (news : news es = [.completed e.request e.result])
    (notes : s'.ledger.notes = s.ledger.notes.settle e.request e.result)
    (messages : ∀ m ∈ s'.messages, m ∈ s.messages ∨
      m.generation = s.ledger.lastGeneration + 1 ∧
        wakeUp? e.request e.result = some m.notification)
    (phase : s'.phase.isClosed = s.phase.isClosed) : Timed key s' (j ++ es) := by
  by_cases again : retryable e.result
  · have hwake := wakeUp?_of_retryable (r := e.request) again
    refine h.retry own (ends.changed_of_retryable again) again news notes ?_ (phase.trans running)
    intro m hm
    rcases messages m hm with hm | ⟨hgeneration, hnotification⟩
    · exact .inl hm
    · rw [hwake] at hnotification
      exact .inr ⟨hgeneration, (Option.some.inj hnotification).symm⟩
  · have hasleep := ends.wakeUp?_of_lasting again
    refine h.finish own again hasleep news notes ?_ phase
    intro m hm
    rcases messages m hm with hm | ⟨-, hwake⟩
    · exact hm
    · rw [hasleep] at hwake
      cases hwake

/-- The end of a pass of another object is taken. -/
theorem complete_other (h : Timed key s j) {e : Completion} (other : ¬e.request.key = key)
    (news : news es = [.completed e.request e.result])
    (notes : s'.ledger.notes = s.ledger.notes.settle e.request e.result)
    (messages : ∀ m ∈ s'.messages, m ∈ s.messages ∨
      m.generation = s.ledger.lastGeneration + 1 ∧
        wakeUp? e.request e.result = some m.notification)
    (phase : s'.phase.isClosed = s.phase.isClosed) : Timed key s' (j ++ es) := by
  have hlast : s'.ledger.lastGeneration = _ := congrArg Notes.lastGeneration notes
  refine h.congr ?_ ?_ ?_ ?_ phase ?_ ?_
  · rw [show s'.ledger.failures = _ from congrArg Notes.failures notes,
      Notes.getElem?_failures_settle, if_neg other]
    rfl
  · rw [show s'.ledger.timers = _ from congrArg Notes.timers notes,
      Notes.getElem?_timers_settle, if_neg fun h => other h.1]
    rfl
  · rw [hlast]
    exact Notes.le_lastGeneration_settle s.ledger.notes _ _
  · intro m hm
    rcases messages m hm with hm | ⟨hgeneration, hwake⟩
    · exact .inl hm
    · rw [hlast, Notes.lastGeneration_settle, hwake, hgeneration]
      exact .inr ⟨Nat.lt_succ_self _, Nat.le_refl _⟩
  · exact standing_of_quiet (setsFailing_of_not_news _) (by simp [news, setsFailing, other])
  · exact standing_of_quiet (setsAwaited_of_not_news _) (by simp [news, setsAwaited, other])

/-- The message of a timer is taken. -/
theorem fire (h : Timed key s j) {ring : Ring}
    (news : news es = [.fired ring, .scheduled ⟨s.ledger.nextSerial, ring.notification⟩])
    (notes : s'.ledger.notes = (s.ledger.notes.forget ring.notification.key).serve)
    (messages : ∀ m ∈ s'.messages, m ∈ s.messages)
    (phase : s'.phase.isClosed = s.phase.isClosed) : Timed key s' (j ++ es) := by
  have hfailures : s'.ledger.failures = s.ledger.failures := congrArg Notes.failures notes
  have htimers : s'.ledger.timers = s.ledger.timers.erase ring.notification.key :=
    congrArg Notes.timers notes
  have hlast : s'.ledger.lastGeneration = s.ledger.lastGeneration :=
    congrArg Notes.lastGeneration notes
  have hfailing : failing key (j ++ es) = failing key j :=
    standing_of_quiet (setsFailing_of_not_news _) (by simp [news, setsFailing])
  by_cases own : ring.notification.key = key
  · -- the message is of the timer of the pod, which is forgotten
    have hawaited : awaited key (j ++ es) = none :=
      standing_of_set (setsAwaited_of_not_news _) (by simp [news, setsAwaited, own])
    refine h.of_unarmed ?_ (by simp [htimers, own]) hlast messages (fun _ => hawaited) ?_
    · rw [hfailing, hfailures, h.failure]
    · simp [hawaited]
  · refine h.congr (by rw [hfailures]) ?_ (Nat.le_of_eq hlast.symm)
      (fun m hm => .inl (messages m hm)) phase hfailing ?_
    · simp [htimers, Std.ExtTreeMap.getElem?_erase, own]
    · exact standing_of_quiet (setsAwaited_of_not_news _) (by simp [news, setsAwaited, own])

/-- Every booking keeps the books of a pod as the journal tells. -/
theorem keeps (h : Timed key s j)
    (ends : ∀ e ∈ s.completions, e.request.key = key → PodEnd e.request e.result)
    (booking : Booking s (s', es)) : Timed key s' (j ++ es) := by
  have hquiet (hfailing : (news es).filterMap (setsFailing key) = [])
      (hawaited : (news es).filterMap (setsAwaited key) = [])
      (failures : s'.ledger.failures = s.ledger.failures)
      (timers : s'.ledger.timers = s.ledger.timers)
      (last : s'.ledger.lastGeneration = s.ledger.lastGeneration)
      (messages : ∀ m ∈ s'.messages, m ∈ s.messages)
      (phase : s'.phase.isClosed = s.phase.isClosed) : Timed key s' (j ++ es) :=
    h.congr (by rw [failures]) (by rw [timers]) (Nat.le_of_eq last.symm)
      (fun m hm => .inl (messages m hm)) phase
      (standing_of_quiet (setsFailing_of_not_news key) hfailing)
      (standing_of_quiet (setsAwaited_of_not_news key) hawaited)
  cases booking with
  | quiet news notes messages phase =>
    exact hquiet (by rw [news]; rfl) (by rw [news]; rfl) (congrArg Notes.failures notes)
      (congrArg Notes.timers notes) (congrArg Notes.lastGeneration notes) messages phase
  | receive n news notes messages phase =>
    exact hquiet (by rw [news]; rfl) (by rw [news]; rfl) (congrArg Notes.failures notes)
      (congrArg Notes.timers notes) (congrArg Notes.lastGeneration notes) messages phase
  | fire ring left current news notes messages phase => exact h.fire news notes messages phase
  | complete e left running news notes messages phase =>
    by_cases hkey : e.request.key = key
    · exact h.complete hkey (ends e left hkey) running news notes messages phase
    · exact h.complete_other hkey news notes messages phase
  | close notes messages phase =>
    have hfailing : failing key (j ++ []) = failing key j := by rw [List.append_nil]
    have hawaited : awaited key (j ++ []) = awaited key j := by rw [List.append_nil]
    refine h.of_unarmed ?_ ?_ (congrArg Notes.lastGeneration notes) messages ?_ ?_
    · rw [hfailing, show s'.ledger.failures = s.ledger.failures from congrArg Notes.failures notes,
        h.failure]
    · rw [show s'.ledger.timers = ∅ from congrArg Notes.timers notes]
      exact Std.ExtTreeMap.getElem?_empty
    · intro hopen
      rw [phase] at hopen
      cases hopen
    · exact hawaited ▸ h.change

end Timed

theorem Timed.step {c : Controller} {key : ObjectKey} {s : State} {j : List Entry}
    (h : Timed key s j) (regular : Regular c s j) (pod : c.IsPod key) (e : Event) :
    Timed key (c.step s e).1 (j ++ (c.step s e).2) :=
  h.keeps (fun x hx hkey => regular.orderly.ends x hx (hkey ▸ pod)) (booking_step c s e)

/-- What is kept of a pod in every run. -/
structure Tended (c : Controller) (key : ObjectKey) (s : State) (j : List Entry) : Prop where
  regular : Regular c s j
  timed : Timed key s j

theorem Tended.step {c : Controller} {key : ObjectKey} {s : State} {j : List Entry}
    (h : Tended c key s j) (pod : c.IsPod key) (e : Event) :
    Tended c key (c.step s e).1 (j ++ (c.step s e).2) where
  regular := h.regular.step e
  timed := h.timed.step h.regular pod e

theorem Tended.run {c : Controller} {key : ObjectKey} {s : State} {j : List Entry}
    (h : Tended c key s j) (pod : c.IsPod key) (events : List Event) :
    Tended c key (c.run s events).1 (j ++ (c.run s events).2) :=
  run_journal c (Tended c key) (fun _ _ e h => h.step pod e) s j events h

theorem tended_run {c : Controller} {key : ObjectKey} (pod : c.IsPod key) (clock : Instant)
    (events : List Event) :
    Tended c key (c.run (.initial clock) events).1 (c.run (.initial clock) events).2 :=
  run_of_nil c (Tended c key) (fun _ _ e h => h.step pod e) _ events
    ⟨regular_initial c clock, timed_initial key clock⟩

/-! ## When the books of timers and failures agree -/

/-- An armed timer belongs to an object that has failed. -/
def TimersFail (s : State) (key : ObjectKey) : Prop :=
  s.ledger.timers.contains key → s.ledger.failures.contains key

variable {c : Controller} {key : ObjectKey} {s : State} {j : List Entry}

theorem Timed.failures_iff (h : Timed key s j) :
    s.ledger.failures.contains key ↔ ∃ n, LastFailed key j n := by
  rw [Std.ExtTreeMap.contains_eq_isSome_getElem?, h.failure, Option.isSome_iff_exists]
  constructor
  · rintro ⟨r, hr⟩
    exact ⟨r.notification, lastFailed_iff.2 ⟨r, hr, rfl⟩⟩
  · rintro ⟨n, hn⟩
    obtain ⟨r, hr, -⟩ := lastFailed_iff.1 hn
    exact ⟨r, hr⟩

/-- A timer is armed for an object that has not failed exactly when it outlives a failure, and the
controller has not forgotten it. -/
theorem Timed.timersFail_iff (h : Timed key s j) :
    TimersFail s key ↔ s.phase.isClosed ∨ ¬Outlived key j := by
  rw [TimersFail, Std.ExtTreeMap.contains_eq_isSome_getElem?,
    Std.ExtTreeMap.contains_eq_isSome_getElem?, outlived_iff, h.failure]
  rcases hclosed : s.phase.isClosed with _ | _
  · -- while it is open, what is armed and what has failed are what the journal tells
    rw [h.armed hclosed]
    rcases hfailing : failing key j with _ | r <;> simp
  · rw [h.closed hclosed]
    simp

/-- What is taken when a message of a timer is. -/
theorem Booking.fired {s' : State} {es : List Entry} (h : Booking s (s', es)) {ring : Ring}
    (hring : .fired ring ∈ es) :
    ring ∈ s.messages ∧ s.ledger.timers[ring.notification.key]? = some ring.generation ∧
      news es = [.fired ring, .scheduled ⟨s.ledger.nextSerial, ring.notification⟩] := by
  have hnews : .fired ring ∈ news es := mem_news.2 ⟨hring, rfl⟩
  cases h with
  | fire ring' left current news =>
    rw [news] at hnews
    obtain rfl : ring = ring' := by simpa using hnews
    exact ⟨left, current, news⟩
  | quiet news => rw [news] at hnews; cases hnews
  | receive n news => simp [news] at hnews
  | complete e left running news => simp [news] at hnews
  | close => cases hring

/-- The message of a timer that is taken brings up the notification of the pass that failed. -/
theorem Tended.fired (h : Tended c key s j) {e : Event} {ring : Ring}
    (hring : .fired ring ∈ (c.step s e).2) (own : ring.notification.key = key) :
    ∃ r, awaited key j = some r ∧ ring.notification = r.notification ∧ r.kind = .changed := by
  obtain ⟨hmessage, hcurrent, -⟩ := (booking_step c s e).fired hring
  obtain ⟨r, hr, hn⟩ := h.timed.message ring hmessage (own ▸ hcurrent)
  exact ⟨r, hr, hn, (h.timed.change r hr).2⟩

/-- The message of a timer that is taken retries the last outcome exactly when the timer does not
outlive the failure. -/
theorem Tended.retries_iff (h : Tended c key s j) {e : Event} {ring : Ring}
    (hring : .fired ring ∈ (c.step s e).2) (own : ring.notification.key = key) :
    LastFailed key j ring.notification ↔ ¬Outlived key j := by
  obtain ⟨x, hx, hn, -⟩ := h.fired hring own
  rw [lastFailed_iff, outlived_iff, hx]
  constructor
  · rintro ⟨r, hr, -⟩ ⟨-, hnone⟩
    rw [hnone] at hr
    cases hr
  · intro hfailing
    -- if there was a last failure, it is the one whose message is taken
    rcases hlast : failing key j with _ | r
    · exact absurd ⟨rfl, hlast⟩ hfailing
    · exact ⟨r, rfl, by rw [hn, awaited_of_failing hlast hx]⟩

end ClusterVitals.Controller
