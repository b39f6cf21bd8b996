import ClusterVitals.Proofs.Arrivals
import Mathlib.Data.List.Perm.Subperm

/-!
# Timers and their messages

The message of a timer is carried by the timer as long as it sleeps, and is left when it is due. Of
the messages that are carried, those of timers that were stopped do not come any more. Taking the
end of a pass arms at most one timer, in the place of the one that the books hold of the object, and
nothing else arms one.
-/

namespace ClusterVitals

/-- The object of a timer. -/
def Timer.key (t : Timer) : ObjectKey := t.notification.key

/-! ## Orders about timers -/

namespace Ledger

/-- Orders that start passes and do nothing else. -/
def StartOnly (orders : List Order) : Prop := ∀ o ∈ orders, ∃ r, o = .start r

theorem startOnly_schedule (l : Ledger) (n : Notification) : StartOnly (l.schedule n).2 := by
  by_cases hbusy : l.inFlight.contains n.key
  · rw [schedule_of_busy hbusy]
    exact fun o ho => absurd ho List.not_mem_nil
  · rw [schedule_of_free hbusy]
    exact fun o ho => ⟨_, List.mem_singleton.1 ho⟩

theorem startOnly_startPending (l : Ledger) (key : ObjectKey) :
    StartOnly (l.startPending key).2 := by
  rcases hheld : l.pending[key]? with _ | held
  · rw [startPending_of_none hheld]
    exact fun o ho => absurd ho List.not_mem_nil
  · rcases hpop : held.pop with ⟨rest, _ | next⟩
    · simp only [startPending, takePending, hheld, hpop]
      exact fun o ho => absurd ho List.not_mem_nil
    · rw [startPending_of_some hheld hpop]
      exact fun o ho => ⟨_, List.mem_singleton.1 ho⟩

/-- The order to stop the timer that the books hold of an object. -/
def stopOrders (l : Ledger) (key : ObjectKey) : List Order := (l.timers[key]?.map .stop).toList

/-- What taking the end of a pass does about timers: nothing, or it arms one under the next
generation and stops the one that it replaces. -/
theorem complete_timers {l l' : Ledger} {b : Backoff} {r : Request} {result : PassResult}
    {orders : List Order} {events : List LogEvent}
    (h : l.complete b r result = .ok (l', orders, events)) :
    (StartOnly orders ∧ l'.timers = l.timers ∧ l'.lastGeneration = l.lastGeneration) ∨
      ∃ t more, orders = .arm t :: l.stopOrders r.key ++ more ∧ StartOnly more ∧ t.key = r.key ∧
        t.generation = l.lastGeneration + 1 ∧ l'.timers = l.timers.insert r.key t.generation ∧
        l'.lastGeneration = t.generation := by
  obtain ⟨l₁, orders₁, hsettle, rfl, rfl⟩ := complete_cases h
  have hmore := startOnly_startPending l₁ r.key
  rw [startPending_frame]
  rcases settle_cases hsettle with ⟨outcome, rfl, hl, -⟩ | ⟨e, delay, rfl, -, -, hl, -⟩ |
      ⟨e, rfl, -, rfl, rfl, -⟩
  · -- a success arms a timer only if it asks for another look
    rcases hdelay : outcome.requeueAfter with _ | delay
    · simp only [succeed, hdelay, Prod.mk.injEq] at hl
      obtain ⟨rfl, rfl⟩ := hl
      exact .inl ⟨hmore, rfl, rfl⟩
    · simp only [succeed, hdelay] at hl
      obtain ⟨rfl, rfl⟩ := Prod.mk.inj hl
      exact .inr ⟨_, _, rfl, hmore, rfl, rfl, rfl, rfl⟩
  · obtain ⟨rfl, rfl⟩ := Prod.mk.inj hl
    exact .inr ⟨_, _, rfl, hmore, rfl, rfl, rfl, rfl⟩
  · exact .inl ⟨hmore, rfl, rfl⟩

end Ledger

namespace Controller

open State Ledger

/-! ## Timers in the journal -/

def Entry.timer? : Entry → Option Timer
  | .armed t => some t
  | _ => none

def Entry.ring? : Entry → Option Ring
  | .fired ring => some ring
  | _ => none

/-- The timers that were armed, in order. -/
def armings (j : List Entry) : List Timer := j.filterMap Entry.timer?

/-- The messages of timers that were taken and not passed over, in order. -/
def firings (j : List Entry) : List Ring := j.filterMap Entry.ring?

theorem armings_append (j k : List Entry) : armings (j ++ k) = armings j ++ armings k :=
  List.filterMap_append

theorem firings_append (j k : List Entry) : firings (j ++ k) = firings j ++ firings k :=
  List.filterMap_append

theorem firings_ofOrder (orders : List Order) : firings (orders.map .ofOrder) = [] := by
  refine List.filterMap_eq_nil_iff.2 ?_
  intro e he
  obtain ⟨o, -, rfl⟩ := List.mem_map.1 he
  cases o <;> rfl

theorem armings_startOnly {orders : List Order} (h : StartOnly orders) :
    armings (orders.map .ofOrder) = [] := by
  refine List.filterMap_eq_nil_iff.2 ?_
  intro e he
  obtain ⟨o, ho, rfl⟩ := List.mem_map.1 he
  obtain ⟨r, rfl⟩ := h o ho
  rfl

/-- Where a timer is armed, it is the only one. -/
theorem armings_arm {l : Ledger} {t : Timer} {more : List Order} (h : StartOnly more) :
    armings ((.arm t :: l.stopOrders t.key ++ more).map .ofOrder) = [t] := by
  rw [List.map_append, armings_append, armings_startOnly h, List.append_nil, stopOrders]
  rcases l.timers[t.key]? with _ | g <;> rfl

/-- The work of passes arms no timer and takes no message of one. -/
theorem timeless_of_work {es : List Entry} (work : ∀ e ∈ es, e.isWork) :
    armings es = [] ∧ firings es = [] := by
  constructor
  · refine List.filterMap_eq_nil_iff.2 ?_
    intro e he
    have hwork := work e he
    cases e with
    | armed t => cases hwork
    | _ => rfl
  · refine List.filterMap_eq_nil_iff.2 ?_
    intro e he
    have hwork := work e he
    cases e with
    | fired ring => cases hwork
    | _ => rfl

section

variable (r : Request) (result : PassResult) (events : List LogEvent) (orders : List Order)

/-- When the end of a pass is taken, timers are armed by the orders alone. -/
theorem armings_completed :
    armings (.completed r result :: events.map .logged ++ orders.map .ofOrder) =
      armings (orders.map .ofOrder) := by
  rw [armings_append]
  exact congrArg (· ++ _) (timeless_of_work fun _ he => isWork_of_mem_logged he).1

/-- When the end of a pass is taken, no message of a timer is. -/
theorem firings_completed :
    firings (.completed r result :: events.map .logged ++ orders.map .ofOrder) = [] := by
  rw [firings_append, firings_ofOrder, List.append_nil]
  exact (timeless_of_work fun _ he => isWork_of_mem_logged he).2

end

/-! ## Who carries a generation -/

/-- The messages that are still to come: of timers that sleep and were not stopped, and those that
were left. -/
def State.coming (s : State) : List Ring :=
  (s.sleepers.filter (!·.stopped)).map (·.timer.message) ++ s.rings

theorem mem_messages_of_coming {s : State} {m : Ring} (h : m ∈ s.coming) : m ∈ s.messages := by
  rcases List.mem_append.1 h with h | h
  · obtain ⟨t, ht, rfl⟩ := List.mem_map.1 h
    exact List.mem_append_left _ (List.mem_map_of_mem (List.mem_filter.1 ht).1)
  · exact List.mem_append_right _ h

theorem mem_coming_of_asleep {s : State} {t : Sleeper} (asleep : t ∈ s.sleepers)
    (live : ¬t.stopped) : t.timer.message ∈ s.coming :=
  List.mem_append_left _ (List.mem_map_of_mem (List.mem_filter.2 ⟨asleep, by simpa using live⟩))

theorem mem_coming_cases {s : State} {m : Ring} (h : m ∈ s.coming) :
    (∃ t ∈ s.sleepers, ¬t.stopped ∧ t.timer.message = m) ∨ m ∈ s.rings := by
  rcases List.mem_append.1 h with h | h
  · obtain ⟨t, ht, rfl⟩ := List.mem_map.1 h
    obtain ⟨hmem, hlive⟩ := List.mem_filter.1 ht
    exact .inl ⟨t, hmem, by simpa using hlive, rfl⟩
  · exact .inr h

/-- Ending a timer keeps the messages of other generations coming. -/
theorem mem_coming_endTimer {s : State} {ended : Nat} {m : Ring} (h : m ∈ s.coming)
    (other : m.generation ≠ ended) : m ∈ (s.endTimer ended).coming := by
  rcases mem_coming_cases h with ⟨t, hmem, hlive, rfl⟩ | h
  · refine mem_coming_of_asleep (List.mem_filter.2 ⟨hmem, ?_⟩) hlive
    simpa [Timer.message] using other
  · exact List.mem_append_right _ h

/-- Stopping a timer keeps the messages of other generations coming. -/
theorem mem_coming_stopTimer {s : State} {stopped : Nat} {m : Ring} (h : m ∈ s.coming)
    (other : m.generation ≠ stopped) : m ∈ (s.stopTimer stopped).coming := by
  rcases mem_coming_cases h with ⟨t, hmem, hlive, rfl⟩ | h
  · refine mem_coming_of_asleep (List.mem_map.2 ⟨t, hmem, if_neg ?_⟩) hlive
    simpa [Timer.message] using other
  · exact List.mem_append_right _ h

/-- A timer that ends takes its message out of those of the timers that sleep. -/
theorem sublist_endTimer (before after : List Sleeper) (t : Sleeper) :
    ((before ++ t :: after).filter (·.timer.generation != t.timer.generation)).Sublist
      (before ++ after) := by
  rw [List.filter_append, List.filter_cons_of_neg (by simp)]
  exact List.filter_sublist.append List.filter_sublist

/-- A timer that is due moves its message to those that were left. -/
theorem subperm_ring {s : State} {t : Sleeper} (asleep : t ∈ s.sleepers) :
    List.Subperm (State.messages { s.endTimer t.timer.generation with
      rings := s.rings ++ [t.timer.message] }) s.messages := by
  obtain ⟨before, after, hsleepers⟩ := List.append_of_mem asleep
  rw [messages, messages, endTimer, hsleepers]
  have hsub := (sublist_endTimer before after t).map (·.timer.message)
  refine (hsub.append_right (s.rings ++ [t.timer.message])).subperm.trans (List.Perm.subperm ?_)
  rw [← List.append_assoc, List.map_append, List.map_append, List.map_cons]
  refine (List.perm_append_singleton _ _).trans ?_
  rw [List.append_assoc, List.append_assoc]
  exact List.perm_middle.symm

/-! ## Carrying out orders -/

theorem obeyAll_append (c : Controller) (s : State) (first second : List Order) :
    (s.obeyAll c (first ++ second)).1 = ((s.obeyAll c first).1.obeyAll c second).1 := by
  induction first generalizing s with
  | nil => rfl
  | cons o rest ih => exact ih (s.obey c o).1

/-- Starting passes leaves the timers alone. -/
theorem sleepers_startOnly {c : Controller} {s : State} {orders : List Order}
    (h : StartOnly orders) : (s.obeyAll c orders).1.sleepers = s.sleepers := by
  induction orders generalizing s with
  | nil => rfl
  | cons o rest ih =>
    obtain ⟨r, rfl⟩ := h o List.mem_cons_self
    have hrest : StartOnly rest := fun o ho => h o (List.mem_cons_of_mem _ ho)
    exact ih hrest (s := (s.obey c (.start r)).1)

section

variable (c : Controller) (s : State) (n : Notification)

theorem sleepers_schedule : (s.schedule c n).1.sleepers = s.sleepers :=
  sleepers_startOnly (s.ledger.startOnly_schedule n)

theorem rings_schedule : (s.schedule c n).1.rings = s.rings := by
  show (obeyAll c _ _).1.rings = _
  rw [obeyAll_frame]

/-- Scheduling a notification arms no timer and takes no message of one. -/
theorem timeless_schedule :
    armings (s.schedule c n).2 = [] ∧ firings (s.schedule c n).2 = [] := by
  show armings (_ :: (obeyAll c _ _).2) = [] ∧ firings (_ :: (obeyAll c _ _).2) = []
  rw [obeyAll_entries]
  exact ⟨armings_startOnly (s.ledger.startOnly_schedule n), firings_ofOrder _⟩

end

section

variable {c : Controller} {s : State} {l : Ledger}

theorem messages_startOnly {orders : List Order} (h : StartOnly orders) :
    (s.obeyAll c orders).1.messages = s.messages := by
  rw [messages, messages, sleepers_startOnly h, obeyAll_frame]

theorem coming_startOnly {orders : List Order} (h : StartOnly orders) :
    (s.obeyAll c orders).1.coming = s.coming := by
  rw [coming, coming, sleepers_startOnly h, obeyAll_frame]

theorem messages_stopOrders (key : ObjectKey) :
    (s.obeyAll c (l.stopOrders key)).1.messages = s.messages := by
  rw [stopOrders]
  rcases l.timers[key]? with _ | g
  · rfl
  · exact messages_stopTimer s g

/-- Only the message of the timer in the books may be lost when it is stopped. -/
theorem mem_coming_stopOrders {key : ObjectKey} {m : Ring} (h : m ∈ s.coming)
    (other : l.timers[key]? ≠ some m.generation) :
    m ∈ (s.obeyAll c (l.stopOrders key)).1.coming := by
  rw [stopOrders]
  rcases hg : l.timers[key]? with _ | g
  · exact h
  · refine mem_coming_stopTimer h ?_
    rintro rfl
    exact other hg

variable {t : Timer} {more : List Order}

/-- Arming a timer adds its message to those that are carried. -/
theorem messages_arm (h : StartOnly more) :
    (s.obeyAll c (.arm t :: l.stopOrders t.key ++ more)).1.messages.Perm
      (t.message :: s.messages) := by
  rw [obeyAll_append, messages_startOnly h]
  show (obeyAll c (s.obey c (.arm t)).1 (l.stopOrders t.key)).1.messages.Perm _
  rw [messages_stopOrders, messages, messages, obey, List.map_append, List.append_assoc]
  exact List.perm_middle

/-- Arming a timer keeps the messages coming, but for the one of the timer that it replaces. -/
theorem mem_coming_arm (h : StartOnly more) {m : Ring} (hm : m ∈ s.coming ∨ m = t.message)
    (other : l.timers[t.key]? ≠ some m.generation) :
    m ∈ (s.obeyAll c (.arm t :: l.stopOrders t.key ++ more)).1.coming := by
  rw [obeyAll_append, coming_startOnly h]
  refine mem_coming_stopOrders (s := (s.obey c (.arm t)).1) ?_ other
  rcases hm with hm | rfl
  · rcases mem_coming_cases hm with ⟨x, hx, hlive, rfl⟩ | hm
    · exact mem_coming_of_asleep (List.mem_append_left _ hx) hlive
    · exact List.mem_append_right _ hm
  · exact mem_coming_of_asleep (t := ⟨t, s.now + t.delay.nanos, false⟩)
      (List.mem_append_right _ (List.mem_singleton_self _)) Bool.false_ne_true

end

end Controller

end ClusterVitals
