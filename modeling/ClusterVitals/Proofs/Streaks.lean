import ClusterVitals.Proofs.DueTimes
import ClusterVitals.Proofs.Recheck
import Mathlib.Data.List.DropRight

/-!
# Failures in a row

The books count, for each object, how many of its passes failed one after the other at last. A
failure that is worth another try arms a timer for the notification of the pass, and the timer waits
for the delay of the failures before it.

## Shape of the proofs

`Streaked` says that the count is the one of the journal, and follows from what a booking notes of
failures. `Ledger.complete_of_retryable` says what the books order after a failure. A journal holds
the end of a pass only where it was taken (`Turn.completed`), so `Delayed` finds behind each failure
the timer that was armed for it.
-/

namespace ClusterVitals

namespace Ledger

/-- After a failure that is worth another try, a timer is armed for the same notification, with the
delay of the failures before it, and no other one. -/
theorem complete_of_retryable {l l' : Ledger} {b : Backoff} {r : Request} {result : PassResult}
    {orders : List Order} {events : List LogEvent}
    (h : l.complete b r result = .ok (l', orders, events))
    (again : retryable result) :
    ∃ delay more, b.delayFor? (l.streak r.key) = some delay ∧
      events = [.retrying r.key delay] ∧ StartOnly more ∧
      orders =
        .arm ⟨l.lastGeneration + 1, r.notification, delay⟩ :: l.stopOrders r.key ++ more := by
  obtain ⟨l₁, orders₁, hsettle, -, rfl⟩ := complete_cases h
  rcases settle_cases hsettle with ⟨outcome, rfl, -, -⟩ | ⟨e, delay, rfl, -, hdelay, hl, rfl⟩ |
      ⟨e, rfl, he, -, -, -⟩
  · cases again
  · obtain ⟨-, rfl⟩ := Prod.mk.inj hl
    exact ⟨delay, _, hdelay, rfl, startOnly_startPending l₁ r.key, rfl⟩
  · exact absurd again he

end Ledger

namespace Controller

open State Ledger

variable {c : Controller} {key : ObjectKey} {s s' : State} {j es : List Entry}

/-! ## The count -/

/-- The number of passes of an object that failed at last, one after the other, with errors that are
worth another try. -/
def failuresInARow (key : ObjectKey) (j : List Entry) : Nat :=
  ((endings key j).rtakeWhile fun x => retryable x.result).length

/-- A count as the books keep it: nothing for none, and no more than can be counted. -/
def counted? (n : Nat) : Option Nat := if n = 0 then none else some (min n largestStreak)

theorem getD_counted? (n : Nat) : (counted? n).getD 0 = min n largestStreak := by
  unfold counted?
  split
  · rename_i hzero
    rw [hzero, Nat.zero_min]
    rfl
  · rfl

theorem failuresInARow_of_unended (unended : endings key es = []) :
    failuresInARow key (j ++ es) = failuresInARow key j := by
  rw [failuresInARow, endings_append, unended, List.append_nil]
  rfl

theorem failuresInARow_of_ending {x : Completion} (ending : endings key es = [x]) :
    failuresInARow key (j ++ es) =
      if retryable x.result then failuresInARow key j + 1 else 0 := by
  rw [failuresInARow, endings_append, ending, List.rtakeWhile_concat]
  split
  · rw [List.length_append]
    rfl
  · rfl

/-- The books count the failures in a row of every object. -/
def Streaked (s : State) (j : List Entry) : Prop :=
  ∀ key : ObjectKey, s.ledger.failures[key]? = counted? (failuresInARow key j)

theorem streaked_initial (clock : Instant) : Streaked (.initial clock) [] := fun _ =>
  Std.ExtTreeMap.getElem?_empty

theorem Streaked.streak (h : Streaked s j) (key : ObjectKey) :
    s.ledger.streak key = min (failuresInARow key j) largestStreak := by
  rw [Ledger.streak, h key, getD_counted?]

/-- Every booking counts the failures in a row. -/
theorem Streaked.keeps (h : Streaked s j) (booking : Booking s (s', es)) :
    Streaked s' (j ++ es) := by
  intro key
  -- unless the end of a pass is taken, nothing is counted
  have hquiet (failures : s'.ledger.failures = s.ledger.failures)
      (unended : endings key (news es) = []) :
      s'.ledger.failures[key]? = counted? (failuresInARow key (j ++ es)) := by
    rw [endings_news] at unended
    rw [failures, failuresInARow_of_unended unended, h key]
  cases booking with
  | quiet news notes => exact hquiet (congrArg Notes.failures notes) (by rw [news]; rfl)
  | receive n news notes => exact hquiet (congrArg Notes.failures notes) (by rw [news]; rfl)
  | fire ring left current news notes =>
    exact hquiet (congrArg Notes.failures notes) (by rw [news]; rfl)
  | close notes => exact hquiet (congrArg Notes.failures notes) rfl
  | complete x left running news notes =>
    rw [show s'.ledger.failures = _ from congrArg Notes.failures notes,
      Notes.getElem?_failures_settle]
    by_cases hkey : x.request.key = key
    · have hending : endings key es = [x] := by
        rw [← endings_news, news]
        exact List.filter_cons_of_pos (by simpa using hkey)
      rw [if_pos hkey, failuresInARow_of_ending hending]
      split
      · have hcount : s.ledger.notes.failures[x.request.key]?.getD 0 =
            min (failuresInARow key j) largestStreak := hkey ▸ h.streak key
        rw [hcount, counted?, if_neg (Nat.succ_ne_zero _)]
        congr 1
        omega
      · rfl
    · have hunended : endings key es = [] := by
        rw [← endings_news, news]
        exact List.filter_cons_of_neg (by simpa using hkey)
      rw [if_neg hkey, failuresInARow_of_unended hunended]
      exact h key

/-! ## What follows a failure -/

/-- A failure that is worth another try arms a timer for the notification of its pass, and no other
one, or there is no delay for it and the controller breaks off. -/
theorem step_retryable {x : Completion} {rest : List Completion} (running : s.phase = .running)
    (first : s.completions = x :: rest) (again : retryable x.result) :
    (∃ delay more, c.config.backoff.delayFor? (s.ledger.streak x.request.key) = some delay ∧
      armings more = [] ∧ (c.step s .complete).2 = .completed x.request x.result ::
        .logged (.retrying x.request.key delay) ::
        .armed ⟨s.ledger.lastGeneration + 1, x.request.notification, delay⟩ :: more) ∨
    (c.config.backoff.delayFor? (s.ledger.streak x.request.key) = none ∧
      (c.step s .complete).1.phase = .broken ∧
      (c.step s .complete).2 = [.brokeOff x.request x.result]) := by
  rcases hc : s.ledger.complete c.config.backoff x.request x.result with
      left | ⟨l, orders, events⟩
  · obtain ⟨-, hendless, -⟩ := complete_eq_error_iff.1 hc
    rw [step_of_endless running first again hendless]
    exact .inr ⟨hendless, rfl, rfl⟩
  · rw [step_complete running first, State.complete]
    simp only [hc]
    obtain ⟨delay, more, hdelay, rfl, hstart, rfl⟩ := complete_of_retryable hc again
    set t : Timer := ⟨s.ledger.lastGeneration + 1, x.request.notification, delay⟩
    have hone : armings ((.arm t :: s.ledger.stopOrders t.key ++ more).map .ofOrder) = [t] :=
      armings_arm hstart
    refine .inl ⟨delay, (s.ledger.stopOrders x.request.key ++ more).map .ofOrder, hdelay, ?_, ?_⟩
    · exact (List.cons.inj hone).2
    · show _ :: _ :: (obeyAll c _ _).2 = _
      rw [obeyAll_entries]
      rfl

theorem mem_finishes {r : Request} {result : PassResult} (h : .completed r result ∈ es) :
    r ∈ finishes es :=
  List.mem_filterMap.2 ⟨_, h, rfl⟩

/-- The end of a pass is in the journal where it was taken, before all else of its turn. -/
theorem Turn.completed {out : State × List Entry} (turn : Turn c s out) {r : Request}
    {result : PassResult} {front after : List Entry}
    (split : out.2 = front ++ .completed r result :: after) :
    front = [] ∧ ∃ rest, s.phase = .running ∧ s.completions = ⟨r, result⟩ :: rest ∧
      out = State.complete c { s with completions := rest } r result := by
  have hmem : .completed r result ∈ out.2 := by
    rw [split]
    exact List.mem_append_right _ List.mem_cons_self
  -- only taking the end of a pass leaves such an entry
  have hnone {P : Prop} (h : finishes out.2 = []) : P := by
    have hr := mem_finishes hmem
    rw [h] at hr
    exact absurd hr List.not_mem_nil
  have hwork {P : Prop} (h : ∀ e ∈ out.2, e.isWork) : P := Bool.noConfusion (h _ hmem)
  cases turn with
  | @receive n rest running first =>
    refine hnone ?_
    show finishes (obeyAll c _ _).2 = []
    rw [obeyAll_entries, finishes_ofOrder]
  | @complete x rest running first =>
    simp only [State.complete] at split hmem ⊢
    rcases hc : s.ledger.complete c.config.backoff x.request x.result with
        left | ⟨l, orders, events⟩
    · simp [hc] at hmem
    · simp only [hc, obeyAll_entries] at split ⊢
      rcases front with _ | ⟨entry, front⟩
      · obtain ⟨hhead, -⟩ := List.cons.inj split
        obtain ⟨rfl, rfl⟩ := Entry.completed.inj hhead
        refine ⟨rfl, rest, running, first, ?_⟩
        simp only [hc]
      · -- behind it, there are no ends of passes in a turn
        obtain ⟨-, htail⟩ := List.cons.inj split
        have hin : Entry.completed r result ∈ events.map .logged ++ orders.map Entry.ofOrder := by
          rw [show events.map .logged ++ orders.map Entry.ofOrder = front ++ _ from htail]
          exact List.mem_append_right _ List.mem_cons_self
        have hr := mem_finishes hin
        rw [finishes_append, finishes_ofOrder, List.append_nil,
          show finishes _ = [] from filterMap_logged (fun _ => rfl) events] at hr
        exact absurd hr List.not_mem_nil
  | @hear ring rest running first =>
    refine hnone ?_
    simp only [State.hear]
    split
    · show finishes (obeyAll c _ _).2 = []
      rw [obeyAll_entries, finishes_ofOrder]
    · rfl
  | begin granted => exact hwork fun _ he => isWork_of_mem_begin c he
  | resume allowed fetching elapsed => exact hwork fun _ he => isWork_of_mem_resume c he
  | _ => exact hnone rfl

/-- Behind each failure that is worth another try, the journal has the timer that was armed for the
same notification, with the delay of the failures before it. -/
def Delayed (c : Controller) (j : List Entry) : Prop :=
  ∀ before r result after, j = before ++ .completed r result :: after → retryable result →
    ∃ t more, after = .logged (.retrying r.key t.delay) :: .armed t :: more ∧
      t.notification = r.notification ∧
      c.config.backoff.delayFor? (min (failuresInARow r.key before) largestStreak) = some t.delay

theorem Delayed.step (h : Delayed c j) (streaked : Streaked s j) (e : Event) :
    Delayed c (j ++ (c.step s e).2) := by
  intro before r result after heq again
  rcases Lane.split_append heq with ⟨rest, rfl⟩ | ⟨front, rfl, hes⟩
  · -- what stood behind it goes on standing there
    obtain ⟨t, more, rfl, hn, hdelay⟩ := h before r result rest rfl again
    rw [List.append_assoc, List.append_cancel_left_eq, List.cons_append, List.cons.injEq] at heq
    exact ⟨t, more ++ (c.step s e).2, heq.2.symm, hn, hdelay⟩
  · obtain ⟨rfl, rest, running, first, hstep⟩ := (turn_step c s e).completed hes
    rw [List.append_nil, ← streaked.streak]
    rw [← step_complete running first] at hstep
    rw [hstep] at hes
    rcases step_retryable running first again with ⟨delay, more, hdelay, -, htaken⟩ |
        ⟨-, -, htaken⟩
    · rw [htaken] at hes
      obtain ⟨-, rfl⟩ := List.cons.inj hes
      exact ⟨⟨s.ledger.lastGeneration + 1, r.notification, delay⟩, more, rfl, rfl, hdelay⟩
    · rw [htaken] at hes
      cases hes

theorem delayed_run (c : Controller) (clock : Instant) (events : List Event) :
    Delayed c (c.run (.initial clock) events).2 := by
  have hrun := run_of_nil c (fun s j => Streaked s j ∧ Delayed c j)
    (fun s j e h => ⟨h.1.keeps (booking_step c s e), h.2.step h.1 e⟩) (.initial clock) events
    ⟨streaked_initial clock, fun before _ _ _ h => by simp at h⟩
  exact hrun.2

end Controller

end ClusterVitals
