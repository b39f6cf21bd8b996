import ClusterVitals.Proofs.Books

/-!
# What a turn notes

A turn takes a notification of the queue, the message of a timer or the end of a pass, or none of
these. `Booking` says for each what is noted then of serials, failures and timers, which messages of
timers there can be afterwards, and which news the journal has of it. `booking_step` says that every
event does one of these.
-/

namespace ClusterVitals

open Controller

/-- The message that a timer leaves. -/
def Timer.message (t : Timer) : Ring := ⟨t.generation, t.notification⟩

/-- The pass failed with an error that is worth another try. -/
def retryable : PassResult → Bool
  | .error e => e.isRetryable
  | .ok _ => false

/-- What the timer brings up that is armed at the end of a pass, if one is: another look at the
object after a success, or another try after a failure. -/
def wakeUp? (r : Request) : PassResult → Option Notification
  | .ok outcome => outcome.requeueAfter.map fun _ => .ofChange r.key
  | .error e => if e.isRetryable then some r.notification else none

theorem wakeUp?_of_retryable {r : Request} {result : PassResult} (h : retryable result) :
    wakeUp? r result = some r.notification := by
  rcases result with e | outcome
  · exact if_pos h
  · cases h

/-! ## Notes -/

/-- What the books note of serials, failures and timers. -/
structure Notes where
  nextSerial : Nat
  failures : Std.ExtTreeMap ObjectKey Nat
  timers : Std.ExtTreeMap ObjectKey Nat
  lastGeneration : Nat

namespace Notes

/-- A serial is given. -/
def serve (notes : Notes) : Notes := { notes with nextSerial := notes.nextSerial + 1 }

/-- The timer of an object is forgotten. -/
def forget (notes : Notes) (key : ObjectKey) : Notes :=
  { notes with timers := notes.timers.erase key }

/-- A timer is armed for an object. -/
def arm (notes : Notes) (key : ObjectKey) : Notes :=
  { notes with
    timers := notes.timers.insert key (notes.lastGeneration + 1)
    lastGeneration := notes.lastGeneration + 1 }

/-- The failures in a row of objects after the end of a pass. -/
def countFailure (notes : Notes) (r : Request) (result : PassResult) : Notes :=
  { notes with
    failures :=
      if retryable result then
        notes.failures.insert r.key (min (notes.failures[r.key]?.getD 0 + 1) Ledger.largestStreak)
      else notes.failures.erase r.key }

/-- The end of a pass is noted. -/
def settle (notes : Notes) (r : Request) (result : PassResult) : Notes :=
  if (wakeUp? r result).isSome then (notes.countFailure r result).arm r.key
  else notes.countFailure r result

section

variable (notes : Notes) {r : Request} {result : PassResult}

theorem countFailure_of_retryable (h : retryable result) :
    notes.countFailure r result =
      { notes with
        failures := notes.failures.insert r.key
          (min (notes.failures[r.key]?.getD 0 + 1) Ledger.largestStreak) } := by
  rw [countFailure, if_pos h]

theorem countFailure_of_lasting (h : ¬retryable result) :
    notes.countFailure r result = { notes with failures := notes.failures.erase r.key } := by
  rw [countFailure, if_neg h]

theorem settle_of_none (h : wakeUp? r result = none) :
    notes.settle r result = notes.countFailure r result := by
  simp [settle, h]

theorem settle_of_some {n : Notification} (h : wakeUp? r result = some n) :
    notes.settle r result = (notes.countFailure r result).arm r.key := by
  simp [settle, h]

end

variable (notes : Notes) (r : Request) (result : PassResult)

theorem nextSerial_settle : (notes.settle r result).nextSerial = notes.nextSerial := by
  unfold settle
  split <;> rfl

theorem lastGeneration_settle : (notes.settle r result).lastGeneration =
    if (wakeUp? r result).isSome then notes.lastGeneration + 1 else notes.lastGeneration := by
  unfold settle
  split <;> rfl

theorem le_lastGeneration_settle :
    notes.lastGeneration ≤ (notes.settle r result).lastGeneration := by
  rw [lastGeneration_settle]
  split <;> omega

/-- A failure is noted of an object whose pass failed, and of no other one. -/
theorem getElem?_failures_settle (key : ObjectKey) :
    (notes.settle r result).failures[key]? =
      if r.key = key then
        if retryable result then
          some (min (notes.failures[r.key]?.getD 0 + 1) Ledger.largestStreak)
        else none
      else notes.failures[key]? := by
  have hfailures : (notes.settle r result).failures = (notes.countFailure r result).failures := by
    unfold settle
    split <;> rfl
  rw [hfailures, countFailure]
  by_cases hkey : r.key = key
  · split <;> simp [hkey]
  · split <;> simp [Std.ExtTreeMap.getElem?_insert, Std.ExtTreeMap.getElem?_erase, hkey]

/-- A timer is armed for an object whose pass asks for one, and for no other one. -/
theorem getElem?_timers_settle (key : ObjectKey) :
    (notes.settle r result).timers[key]? =
      if r.key = key ∧ (wakeUp? r result).isSome then some (notes.lastGeneration + 1)
      else notes.timers[key]? := by
  unfold settle
  split
  · rename_i hsome
    show (notes.timers.insert r.key (notes.lastGeneration + 1))[key]? = _
    rw [Std.ExtTreeMap.getElem?_insert]
    simp [hsome]
  · rename_i hnone
    rw [if_neg fun h => hnone h.2]
    rfl

end Notes

namespace Ledger

def notes (l : Ledger) : Notes := ⟨l.nextSerial, l.failures, l.timers, l.lastGeneration⟩

theorem notes_schedule (l : Ledger) (n : Notification) :
    (l.schedule n).1.notes = l.notes.serve := by
  by_cases hbusy : l.inFlight.contains n.key
  · rw [schedule_of_busy hbusy]
    rfl
  · rw [schedule_of_free hbusy]
    rfl

theorem notes_startPending (l : Ledger) (key : ObjectKey) :
    (l.startPending key).1.notes = l.notes := by
  rw [startPending_frame]
  rfl

/-- Taking a notification arms no timer. -/
theorem not_arm_schedule {l : Ledger} {n : Notification} {t : Timer} :
    .arm t ∉ (l.schedule n).2 := by
  by_cases hbusy : l.inFlight.contains n.key
  · rw [schedule_of_busy hbusy]
    exact List.not_mem_nil
  · rw [schedule_of_free hbusy]
    simp [start]

/-- What is pending is started without a timer. -/
theorem not_arm_startPending {l : Ledger} {key : ObjectKey} {t : Timer} :
    .arm t ∉ (l.startPending key).2 := by
  rcases hheld : l.pending[key]? with _ | held
  · rw [startPending_of_none hheld]
    exact List.not_mem_nil
  · rcases hpop : held.pop with ⟨rest, _ | next⟩
    · simp [startPending, takePending, hheld, hpop]
    · rw [startPending_of_some hheld hpop]
      simp [start]

/-- The one timer that arming orders. -/
theorem eq_of_arm_mem {l : Ledger} {n : Notification} {delay : Duration} {t : Timer}
    (h : .arm t ∈ (l.arm n delay).2) : t = ⟨l.lastGeneration + 1, n, delay⟩ := by
  rcases List.mem_cons.1 h with h | h
  · exact Order.arm.inj h
  · simp at h

/-- Noting the end of a pass settles it in the notes, and arms the timer that the end asks for. -/
theorem notes_settle {l l' : Ledger} {b : Backoff} {r : Request} {result : PassResult}
    {orders : List Order} {events : List LogEvent}
    (h : l.settle b r.notification result = .ok (l', orders, events)) :
    l'.notes = l.notes.settle r result ∧
      ∀ t, .arm t ∈ orders → t.generation = l.lastGeneration + 1 ∧
        wakeUp? r result = some t.notification := by
  rcases settle_cases h with ⟨outcome, rfl, hl, -⟩ | ⟨e, delay, rfl, he, -, hl, -⟩ |
      ⟨e, rfl, he, rfl, rfl, -⟩
  · -- a success ends the failures, and may ask for another look
    have hlasting : ¬retryable (.ok outcome) := Bool.false_ne_true
    rcases hdelay : outcome.requeueAfter with _ | delay
    · have hwake : wakeUp? r (.ok outcome) = none := by rw [wakeUp?, hdelay]; rfl
      simp only [succeed, hdelay, Prod.mk.injEq] at hl
      obtain ⟨rfl, rfl⟩ := hl
      rw [Notes.settle_of_none _ hwake, Notes.countFailure_of_lasting _ hlasting]
      exact ⟨rfl, fun t ht => absurd ht List.not_mem_nil⟩
    · -- the timer is the only one that is ordered
      have hwake : wakeUp? r (.ok outcome) = some (.ofChange r.key) := by
        rw [wakeUp?, hdelay]
        rfl
      simp only [succeed, hdelay] at hl
      obtain ⟨rfl, rfl⟩ := Prod.mk.inj hl
      rw [Notes.settle_of_some _ hwake, Notes.countFailure_of_lasting _ hlasting]
      refine ⟨rfl, ?_⟩
      intro t ht
      rw [eq_of_arm_mem ht]
      exact ⟨rfl, hwake⟩
  · -- another failure that is worth a try
    have hretry : retryable (.error e) := he
    have hwake : wakeUp? r (.error e) = some r.notification := wakeUp?_of_retryable he
    rw [retry_countRetry] at hl
    obtain ⟨rfl, rfl⟩ := Prod.mk.inj hl
    rw [Notes.settle_of_some _ hwake, Notes.countFailure_of_retryable _ hretry]
    refine ⟨rfl, ?_⟩
    intro t ht
    rw [eq_of_arm_mem ht]
    exact ⟨rfl, hwake⟩
  · have hlasting : ¬retryable (.error e) := he
    have hwake : wakeUp? r (.error e) = none := if_neg he
    rw [Notes.settle_of_none _ hwake, Notes.countFailure_of_lasting _ hlasting]
    exact ⟨rfl, fun t ht => absurd ht List.not_mem_nil⟩

/-- Taking the end of a pass settles it in the notes, and arms the timer that the end asks for. -/
theorem notes_complete {l l' : Ledger} {b : Backoff} {r : Request} {result : PassResult}
    {orders : List Order} {events : List LogEvent}
    (h : l.complete b r result = .ok (l', orders, events)) :
    l'.notes = l.notes.settle r result ∧
      ∀ t, .arm t ∈ orders → t.generation = l.lastGeneration + 1 ∧
        wakeUp? r result = some t.notification := by
  obtain ⟨l₁, orders₁, hsettle, rfl, rfl⟩ := complete_cases h
  obtain ⟨hnotes, harm⟩ := notes_settle hsettle
  refine ⟨?_, fun t ht => harm t ?_⟩
  · rw [notes_startPending, hnotes]
    rfl
  · rcases List.mem_append.1 ht with ht | ht
    · exact ht
    · exact absurd ht not_arm_startPending

end Ledger

namespace Controller

open State

/-! ## News -/

/-- An entry of what the controller took up. -/
def Entry.isNews : Entry → Bool
  | .received _ | .scheduled _ | .completed .. | .fired _ => true
  | _ => false

/-- What the controller took up, in order. -/
def news (j : List Entry) : List Entry := j.filter Entry.isNews

theorem mem_news {j : List Entry} {e : Entry} : e ∈ news j ↔ e ∈ j ∧ e.isNews := List.mem_filter

theorem news_append (j k : List Entry) : news (j ++ k) = news j ++ news k := List.filter_append ..

/-- What is told by news only can be told from the news. -/
theorem filterMap_news {α : Type} {f : Entry → Option α} (hf : ∀ e, e.isNews = false → f e = none)
    (j : List Entry) : (news j).filterMap f = j.filterMap f := by
  induction j with
  | nil => rfl
  | cons e j ih =>
    have hrest : (j.filter Entry.isNews).filterMap f = j.filterMap f := ih
    rcases he : e.isNews with _ | _
    · rw [news, List.filter_cons_of_neg (by simp [he]), List.filterMap_cons_none (hf e he), hrest]
    · rw [news, List.filter_cons_of_pos he, List.filterMap_cons, List.filterMap_cons, hrest]

theorem news_ofOrder (orders : List Order) : news (orders.map .ofOrder) = [] := by
  refine List.filter_eq_nil_iff.2 ?_
  intro e he
  obtain ⟨o, -, rfl⟩ := List.mem_map.1 he
  cases o <;> simp [Entry.ofOrder, Entry.isNews]

/-- The work of passes is no news. -/
theorem news_of_work {es : List Entry} (work : ∀ e ∈ es, e.isWork) : news es = [] := by
  refine List.filter_eq_nil_iff.2 ?_
  intro e he hnews
  have hwork := work e he
  cases e with
  | applied effect => cases hnews
  | logged event => cases hnews
  | _ => cases hwork

/-! ## Messages -/

/-- The messages of timers that are still to be taken: of those that sleep, and those left. -/
def State.messages (s : State) : List Ring := s.sleepers.map (·.timer.message) ++ s.rings

theorem messages_stopTimer (s : State) (generation : Nat) :
    (s.stopTimer generation).messages = s.messages := by
  rw [messages, messages, stopTimer, List.map_map]
  congr 1
  refine List.map_congr_left ?_
  intro t _
  simp only [Function.comp_apply]
  split <;> rfl

theorem messages_endTimer {s : State} {generation : Nat} {m : Ring}
    (h : m ∈ (s.endTimer generation).messages) : m ∈ s.messages := by
  rcases List.mem_append.1 h with h | h
  · -- some of the timers that sleep go on sleeping
    obtain ⟨t, ht, rfl⟩ := List.mem_map.1 h
    exact List.mem_append_left _ (List.mem_map_of_mem (List.mem_filter.1 ht).1)
  · exact List.mem_append_right _ h

/-- Orders add the messages of the timers that they arm. -/
theorem messages_obeyAll {c : Controller} {s : State} {orders : List Order} {m : Ring}
    (h : m ∈ (s.obeyAll c orders).1.messages) :
    m ∈ s.messages ∨ ∃ t, .arm t ∈ orders ∧ m = t.message := by
  induction orders generalizing s with
  | nil => exact .inl h
  | cons o rest ih =>
    have h : m ∈ ((s.obey c o).1.obeyAll c rest).1.messages := h
    rcases ih h with h | ⟨t, ht, rfl⟩
    · cases o with
      | start r => exact .inl h
      | arm t =>
        rw [messages, obey, List.map_append, List.append_assoc] at h
        rcases List.mem_append.1 h with h | h
        · exact .inl (List.mem_append_left _ h)
        · rcases List.mem_cons.1 h with rfl | h
          · exact .inr ⟨t, List.mem_cons_self, rfl⟩
          · exact .inl (List.mem_append_right _ h)
      | stop generation =>
        have h : m ∈ (s.stopTimer generation).messages := h
        rw [messages_stopTimer] at h
        exact .inl h
    · exact .inr ⟨t, List.mem_cons_of_mem _ ht, rfl⟩

/-! ## Bookings -/

/-- The controller was closed, and has forgotten its timers. -/
def Phase.isClosed : Phase → Bool
  | .closing | .stopped => true
  | _ => false

theorem Phase.isClosed_iff {p : Phase} : p.isClosed ↔ p = .closing ∨ p = .stopped := by
  cases p <;> simp [isClosed]

/-- What is noted in a turn. Apart from that of a timer that is armed, only messages that were there
can be there afterwards. -/
inductive Booking (s : State) : State × List Entry → Prop where
  /-- Nothing is taken up. -/
  | quiet {s' : State} {es : List Entry} (news : news es = [])
      (notes : s'.ledger.notes = s.ledger.notes) (messages : ∀ m ∈ s'.messages, m ∈ s.messages)
      (phase : s'.phase.isClosed = s.phase.isClosed) : Booking s (s', es)
  | receive {s' : State} {es : List Entry} (n : Notification)
      (news : news es = [.received n, .scheduled ⟨s.ledger.nextSerial, n⟩])
      (notes : s'.ledger.notes = s.ledger.notes.serve)
      (messages : ∀ m ∈ s'.messages, m ∈ s.messages)
      (phase : s'.phase.isClosed = s.phase.isClosed) : Booking s (s', es)
  | fire {s' : State} {es : List Entry} (ring : Ring) (left : ring ∈ s.messages)
      (current : s.ledger.timers[ring.notification.key]? = some ring.generation)
      (news : news es = [.fired ring, .scheduled ⟨s.ledger.nextSerial, ring.notification⟩])
      (notes : s'.ledger.notes = (s.ledger.notes.forget ring.notification.key).serve)
      (messages : ∀ m ∈ s'.messages, m ∈ s.messages)
      (phase : s'.phase.isClosed = s.phase.isClosed) : Booking s (s', es)
  | complete {s' : State} {es : List Entry} (e : Completion) (left : e ∈ s.completions)
      (running : s.phase.isClosed = false) (news : news es = [.completed e.request e.result])
      (notes : s'.ledger.notes = s.ledger.notes.settle e.request e.result)
      (messages : ∀ m ∈ s'.messages, m ∈ s.messages ∨
        m.generation = s.ledger.lastGeneration + 1 ∧
          wakeUp? e.request e.result = some m.notification)
      (phase : s'.phase.isClosed = s.phase.isClosed) : Booking s (s', es)
  /-- The controller forgets its timers. -/
  | close {s' : State} (notes : s'.ledger.notes = { s.ledger.notes with timers := ∅ })
      (messages : ∀ m ∈ s'.messages, m ∈ s.messages) (phase : s'.phase.isClosed) :
      Booking s (s', [])

/-! ## Turns are bookings -/

section

variable (c : Controller) (s : State) (n : Notification)

theorem news_schedule : news (s.schedule c n).2 = [.scheduled ⟨s.ledger.nextSerial, n⟩] := by
  show .scheduled _ :: news (obeyAll c _ _).2 = _
  rw [obeyAll_entries, news_ofOrder]

theorem state_notes_schedule : (s.schedule c n).1.ledger.notes = s.ledger.notes.serve := by
  show (obeyAll c _ _).1.ledger.notes = _
  rw [obeyAll_frame]
  exact s.ledger.notes_schedule n

theorem messages_schedule {m : Ring} (h : m ∈ (s.schedule c n).1.messages) : m ∈ s.messages := by
  rcases messages_obeyAll h with h | ⟨t, ht, -⟩
  · exact h
  · exact absurd ht Ledger.not_arm_schedule

theorem phase_schedule : (s.schedule c n).1.phase = s.phase := by
  show (obeyAll c _ _).1.phase = _
  rw [obeyAll_frame]

end

namespace Booking

variable {c : Controller} {s : State}

/-- Taking the end of a pass. -/
theorem of_complete {e : Completion} {rest : List Completion} (running : s.phase = .running)
    (first : s.completions = e :: rest) :
    Booking s (State.complete c { s with completions := rest } e.request e.result) := by
  have hopen : s.phase.isClosed = false := by
    rw [running]
    rfl
  simp only [State.complete]
  split
  · -- the controller breaks off, with no word of the pass
    exact .quiet rfl rfl (fun m hm => List.mem_append_right _ hm) hopen.symm
  · rename_i l orders events hc
    obtain ⟨hnotes, harm⟩ := Ledger.notes_complete hc
    refine .complete e (first ▸ List.mem_cons_self) hopen ?_ ?_ ?_ ?_
    · rw [news_append, obeyAll_entries, news_ofOrder, List.append_nil]
      exact congrArg (.completed e.request e.result :: ·)
        (news_of_work fun _ he => isWork_of_mem_logged he)
    · rw [obeyAll_frame]
      exact hnotes
    · intro m hm
      rcases messages_obeyAll hm with hm | ⟨t, ht, rfl⟩
      · exact .inl hm
      · exact .inr (harm t ht)
    · rw [obeyAll_frame]

/-- Taking the message of a timer. -/
theorem of_hear {ring : Ring} {rest : List Ring} (first : s.rings = ring :: rest) :
    Booking s (State.hear c { s with rings := rest } ring) := by
  have hrest (m : Ring) (hm : m ∈ State.messages { s with rings := rest }) : m ∈ s.messages := by
    rcases List.mem_append.1 hm with hm | hm
    · exact List.mem_append_left _ hm
    · refine List.mem_append_right _ ?_
      rw [first]
      exact List.mem_cons_of_mem _ hm
  simp only [hear]
  split
  · -- the timer is the one that is armed, and is forgotten before its notification is scheduled
    rename_i hcurrent
    have left : ring ∈ s.messages := by
      refine List.mem_append_right _ ?_
      rw [first]
      exact List.mem_cons_self
    rw [Ledger.fire, if_pos hcurrent]
    set s₁ : State := { s with
      rings := rest
      ledger := { s.ledger with timers := s.ledger.timers.erase ring.notification.key } }
    refine .fire ring left hcurrent ?_ (state_notes_schedule c s₁ _) ?_ ?_
    · exact congrArg (.fired ring :: ·) (news_schedule c s₁ ring.notification)
    · intro m hm
      exact hrest m (messages_schedule c s₁ ring.notification hm)
    · exact congrArg Phase.isClosed (phase_schedule c s₁ ring.notification)
  · -- the timer was replaced, and its message is passed over
    exact .quiet rfl rfl hrest rfl

/-- Every turn is a booking. -/
theorem of_turn {out : State × List Entry} (turn : Turn c s out) : Booking s out := by
  cases turn with
  | aside => exact .quiet rfl rfl (fun _ hm => hm) rfl
  | change => exact .quiet rfl rfl (fun _ hm => hm) rfl
  | @receive n rest running first =>
    set s₁ : State := { s with queue := rest }
    refine .receive n ?_ (state_notes_schedule c s₁ n)
      (fun m hm => messages_schedule c s₁ n hm) (congrArg Phase.isClosed (phase_schedule c s₁ n))
    exact congrArg (.received n :: ·) (news_schedule c s₁ n)
  | complete running first => exact of_complete running first
  | hear running first => exact of_hear first
  | @ring t asleep live due =>
    refine .quiet rfl rfl ?_ rfl
    intro m hm
    rw [messages, ← List.append_assoc] at hm
    rcases List.mem_append.1 hm with hm | hm
    · exact messages_endTimer hm
    · -- the message that is left is the one of the timer that slept
      rw [List.mem_singleton.1 hm]
      exact List.mem_append_left _ (List.mem_map_of_mem asleep)
  | reap asleep stopped => exact .quiet rfl rfl (fun m hm => messages_endTimer hm) rfl
  | @begin r granted =>
    show Booking s ((s.begin c r).1, (s.begin c r).2)
    refine .quiet (news_of_work fun _ he => isWork_of_mem_begin c he) ?_ ?_ ?_
    · rw [begin_frame]
    · intro m hm
      rw [begin_frame] at hm
      exact hm
    · rw [begin_frame]
  | resume allowed fetching elapsed =>
    exact .quiet (news_of_work fun _ he => isWork_of_mem_resume c he) rfl (fun _ hm => hm) rfl
  | expire => exact .quiet rfl rfl (fun _ hm => hm) rfl
  | drop => exact .quiet rfl rfl (fun _ hm => hm) rfl
  | close => exact .close rfl (fun _ hm => hm) rfl
  | stopTimer generation closing =>
    refine .quiet rfl rfl ?_ rfl
    intro m hm
    rwa [messages_stopTimer] at hm
  | finish closing passes sleepers =>
    refine .quiet rfl rfl (fun _ hm => hm) ?_
    rw [closing]
    rfl

end Booking

theorem booking_step (c : Controller) (s : State) (e : Event) :
    Booking s ((c.step s e).1, (c.step s e).2) :=
  .of_turn (turn_step c s e)

end Controller

end ClusterVitals
