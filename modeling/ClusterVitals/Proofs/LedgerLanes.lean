import ClusterVitals.Proofs.Lane

/-!
# Ledgers match lanes

What the books of a controller hold for one object is what the lane of this object comes to. Taking
a notification or the end of a pass is one step of the lane of its object, and leaves the lanes of
other objects alone.
-/

namespace ClusterVitals

open Controller

/-- Something is held after a push. -/
theorem Pending.isEmpty_push (p : Pending) (r : Request) : (p.push r).isEmpty = false := by
  rcases hkind : r.notification.kind with _ | _ <;> simp [push, hkind, isEmpty]

theorem Pending.exists_pop {p : Pending} (h : p ≠ empty) : ∃ q r, p.pop = (q, some r) := by
  rcases hpop : p.pop with ⟨q, _ | r⟩
  · exact absurd (pop_eq_none_iff.1 (congrArg Prod.snd hpop)) h
  · exact ⟨q, r, rfl⟩

namespace Controller

/-- What an event does in a lane: nothing, or one step. -/
def Lane.Moves (lane : Lane) (es : List Entry) (lane' : Lane) : Prop :=
  lane' = lane ∧ es = [] ∨ Lane.Step lane es lane'

/-- The pass that was under way and those that are started complete, but for the one that is under
way then. -/
theorem Lane.Moves.balance {lane lane' : Lane} {es : List Entry} (h : lane.Moves es lane') :
    lane.current.toList ++ starts es = finishes es ++ lane'.current.toList := by
  rcases h with ⟨rfl, rfl⟩ | h
  · exact List.append_nil _
  · cases h <;> rfl

theorem Lane.Moves.run {lane lane' : Lane} {es : List Entry} (h : lane.Moves es lane') :
    lane.Run es lane' := by
  rcases h with ⟨rfl, rfl⟩ | h
  · exact .nil lane'
  · have hrun := Lane.Run.cons h (.nil lane')
    rwa [List.append_nil] at hrun

end Controller

namespace Ledger

/-- The books hold for an object what a lane comes to. -/
structure Matches (l : Ledger) (key : ObjectKey) (lane : Lane) : Prop where
  busy : l.inFlight.contains key = lane.current.isSome
  held : l.pending[key]? = if lane.held.isEmpty then none else some lane.held
  fresh : lane.next ≤ l.nextSerial
  keyed : ∀ r ∈ lane.current.toList ++ lane.held.requests, r.key = key

theorem matches_empty (key : ObjectKey) : Ledger.empty.Matches key .empty where
  busy := Std.ExtTreeSet.contains_empty
  held := Std.ExtTreeMap.getElem?_empty
  fresh := Nat.le_refl _
  keyed := by simp [Lane.empty, Pending.empty, Pending.requests]

/-- Only what the books hold for an object, and the serials given so far, matter for its lane. -/
theorem Matches.congr {l l' : Ledger} {key : ObjectKey} {lane : Lane} (h : l.Matches key lane)
    (busy : l'.inFlight.contains key = l.inFlight.contains key)
    (held : l'.pending[key]? = l.pending[key]?) (fresh : l.nextSerial ≤ l'.nextSerial) :
    l'.Matches key lane where
  busy := busy.trans h.busy
  held := held.trans h.held
  fresh := Nat.le_trans h.fresh fresh
  keyed := h.keyed

/-- What is pending for an object is what its lane holds. -/
theorem Matches.getD_pending {l : Ledger} {key : ObjectKey} {lane : Lane} (h : l.Matches key lane) :
    l.pending[key]?.getD .empty = lane.held := by
  rw [h.held]
  split
  · rename_i hempty
    rw [Pending.isEmpty_iff.1 hempty]
    rfl
  · rfl

/-- All that is pending for an object is about it. -/
theorem Matches.pending_keyed {l : Ledger} {key : ObjectKey} {lane : Lane} (h : l.Matches key lane)
    {held : Pending} (found : l.pending[key]? = some held) : ∀ r ∈ held.requests, r.key = key := by
  have hheld := h.getD_pending
  rw [found] at hheld
  obtain rfl : held = lane.held := hheld
  exact fun r hr => h.keyed r (List.mem_append_right _ hr)

/-! ## Taking a notification -/

theorem schedule_of_busy {l : Ledger} {n : Notification} (h : l.inFlight.contains n.key) :
    l.schedule n = ({ l with nextSerial := l.nextSerial + 1 }.hold ⟨l.nextSerial, n⟩, []) :=
  if_pos h

theorem schedule_of_free {l : Ledger} {n : Notification} (h : ¬l.inFlight.contains n.key) :
    l.schedule n = ({ l with nextSerial := l.nextSerial + 1 }.start ⟨l.nextSerial, n⟩) :=
  if_neg h

section

variable {l : Ledger} {n : Notification}

/-- A request is held back behind the one under way. -/
theorem Matches.hold {next : Nat} {cur : Request} {held : Pending}
    (h : l.Matches n.key ⟨next, some cur, held⟩) :
    Matches ({ l with nextSerial := l.nextSerial + 1 }.hold ⟨l.nextSerial, n⟩) n.key
      ⟨l.nextSerial + 1, some cur, held.push ⟨l.nextSerial, n⟩⟩ where
  busy := h.busy
  held := by
    show (l.pending.insert n.key ((l.pending[n.key]?.getD .empty).push _))[n.key]? = _
    rw [h.getD_pending, Std.ExtTreeMap.getElem?_insert_self, Pending.isEmpty_push]
    rfl
  fresh := Nat.le_refl _
  keyed := by
    intro x hx
    rcases List.mem_append.1 hx with hx | hx
    · exact h.keyed x (List.mem_append_left _ hx)
    · rcases Pending.mem_requests_push hx with hx | rfl
      · exact h.keyed x (List.mem_append_right _ hx)
      · rfl

/-- A request is started with nothing under way. -/
theorem Matches.enter {next : Nat} (h : l.Matches n.key ⟨next, none, .empty⟩) :
    Matches ({ l with nextSerial := l.nextSerial + 1 }.start ⟨l.nextSerial, n⟩).1 n.key
      ⟨l.nextSerial + 1, some ⟨l.nextSerial, n⟩, .empty⟩ where
  busy := Std.ExtTreeSet.contains_insert_self
  held := h.held
  fresh := Nat.le_refl _
  keyed := by simp [Request.key, Pending.empty, Pending.requests]

/-- Taking a notification of another object leaves a lane alone. -/
theorem Matches.schedule_other {key : ObjectKey} {lane : Lane} (h : l.Matches key lane)
    (hne : n.key ≠ key) :
    own key (.scheduled ⟨l.nextSerial, n⟩ :: (l.schedule n).2.map .ofOrder) = [] ∧
      (l.schedule n).1.Matches key lane := by
  rw [own_cons_of_ne rfl hne]
  by_cases hbusy : l.inFlight.contains n.key
  · rw [schedule_of_busy hbusy]
    refine ⟨rfl, h.congr rfl ?_ (Nat.le_succ _)⟩
    show (l.pending.insert n.key _)[key]? = _
    rw [Std.ExtTreeMap.getElem?_insert, if_neg (by simpa using hne)]
  · rw [schedule_of_free hbusy]
    constructor
    · show own key [.started ⟨l.nextSerial, n⟩] = []
      rw [own_cons_of_ne rfl hne]
      rfl
    · refine h.congr ?_ rfl (Nat.le_succ _)
      show (l.inFlight.insert n.key).contains key = _
      rw [Std.ExtTreeSet.contains_insert]
      simp [hne]

end

/-- Taking a notification is at most one step of each lane. -/
theorem Matches.schedule {l : Ledger} {key : ObjectKey} {lane : Lane} (h : l.Matches key lane)
    (idle : lane.current = none → lane.held = .empty) (n : Notification) :
    ∃ lane', lane.Moves
        (own key (.scheduled ⟨l.nextSerial, n⟩ :: (l.schedule n).2.map .ofOrder)) lane' ∧
      (l.schedule n).1.Matches key lane' := by
  by_cases hkey : n.key = key
  · subst hkey
    rcases lane with ⟨next, _ | cur, held⟩
    · -- nothing is under way, so nothing is held either
      obtain rfl : held = .empty := idle rfl
      have hfree : ¬l.inFlight.contains n.key := by
        rw [h.busy]
        exact Bool.false_ne_true
      rw [schedule_of_free hfree]
      refine ⟨_, .inr ?_, h.enter⟩
      show Lane.Step _ (own n.key [.scheduled _, .started _]) _
      rw [own_cons rfl, own_cons rfl]
      exact .enter h.fresh
    · rw [schedule_of_busy h.busy]
      refine ⟨_, .inr ?_, h.hold⟩
      rw [own_cons rfl]
      exact .hold h.fresh
  · obtain ⟨hnone, hbooks⟩ := h.schedule_other hkey
    exact ⟨lane, .inl ⟨rfl, hnone⟩, hbooks⟩

/-! ## Taking the end of a pass -/

/-- Counting a failure is not noting one more in a row. -/
@[simp]
theorem streak_countRetry (l : Ledger) (key : ObjectKey) :
    (l.countRetry key).streak key = l.streak key := by
  rw [streak, streak, countRetry, Std.ExtTreeMap.getElem?_insertIfNew]
  by_cases hcounted : key ∈ l.failures
  · rw [if_neg fun h => h.2 hcounted]
  · rw [if_pos ⟨Std.ReflCmp.compare_self, hcounted⟩, Std.ExtTreeMap.getElem?_eq_none hcounted]
    rfl

/-- The entry that was opened takes the number of failures in a row. -/
theorem retry_countRetry (l : Ledger) (n : Notification) (delay : Duration) :
    (l.countRetry n.key).retry n delay =
      { l with
        stats := { l.stats with failures := l.stats.failures + 1, retries := l.stats.retries + 1 }
        failures := l.failures.insert n.key (min (l.streak n.key + 1) largestStreak) }.arm
          n delay := by
  have hfailures (streak : Nat) : (l.failures.insertIfNew n.key 0).insert n.key streak =
      l.failures.insert n.key streak := by
    refine Std.ExtTreeMap.ext_getElem? fun key => ?_
    rw [Std.ExtTreeMap.getElem?_insert, Std.ExtTreeMap.getElem?_insert]
    split
    · rfl
    · rename_i other
      rw [Std.ExtTreeMap.getElem?_insertIfNew, if_neg fun h => other h.1]
  rw [retry, streak_countRetry, countRetry]
  dsimp only
  rw [hfailures]

/-- What noting the end of a pass can be. -/
theorem settle_cases {l l' : Ledger} {b : Backoff} {n : Notification} {result : PassResult}
    {orders : List Order} {events : List LogEvent}
    (h : l.settle b n result = .ok (l', orders, events)) :
    (∃ outcome, result = .ok outcome ∧ (l', orders) = l.succeed n.key outcome ∧ events = []) ∨
      (∃ e delay, result = .error e ∧ e.isRetryable ∧ b.delayFor? (l.streak n.key) = some delay ∧
        (l', orders) = (l.countRetry n.key).retry n delay ∧ events = [.retrying n.key delay]) ∨
      ∃ e, result = .error e ∧ ¬e.isRetryable ∧ l' = l.giveUp n.key ∧ orders = [] ∧
        events = [.failed n.key] := by
  rcases result with e | outcome
  · by_cases hretry : e.isRetryable
    · rw [settle, if_pos hretry, tryAgain, streak_countRetry] at h
      rcases hdelay : b.delayFor? (l.streak n.key) with _ | delay
      · rw [hdelay] at h
        cases h
      · rcases hl : (l.countRetry n.key).retry n delay with ⟨l₁, orders₁⟩
        rw [hdelay, Option.elim_some, hl] at h
        obtain ⟨rfl, rfl, rfl⟩ := by simpa using h
        exact .inr (.inl ⟨e, delay, rfl, hretry, rfl, hl.symm, rfl⟩)
    · rw [settle, if_neg hretry] at h
      obtain ⟨rfl, rfl, rfl⟩ := by simpa using h
      exact .inr (.inr ⟨e, rfl, hretry, rfl, rfl, rfl⟩)
  · -- a success is always noted
    obtain ⟨rfl, rfl, rfl⟩ := by simpa [settle] using h
    exact .inl ⟨outcome, rfl, rfl, rfl⟩

/-- Taking the end of a pass is noting it and then starting what is pending. -/
theorem complete_cases {l l' : Ledger} {b : Backoff} {r : Request} {result : PassResult}
    {orders : List Order} {events : List LogEvent}
    (h : l.complete b r result = .ok (l', orders, events)) :
    ∃ l₁ orders₁, (l.release r.key).settle b r.notification result = .ok (l₁, orders₁, events) ∧
      l' = (l₁.startPending r.key).1 ∧ orders = orders₁ ++ (l₁.startPending r.key).2 := by
  rcases hsettle : (l.release r.key).settle b r.notification result with
      left | ⟨l₁, orders₁, events₁⟩
  · rw [complete, hsettle] at h
    cases h
  · rw [complete, hsettle] at h
    obtain ⟨hl, hmore⟩ := Prod.mk.inj (Except.ok.inj h)
    obtain ⟨horders, rfl⟩ := Prod.mk.inj hmore
    exact ⟨l₁, orders₁, rfl, hl.symm, horders.symm⟩

/-- Of what matters for lanes, the one entry of an object under way is closed. -/
structure Closes (l : Ledger) (key : ObjectKey) (l' : Ledger) : Prop where
  inFlight : l'.inFlight = l.inFlight.erase key
  pending : l'.pending = l.pending
  nextSerial : l'.nextSerial = l.nextSerial

/-- Orders that concern no lane: they start no pass. -/
def Quiet (orders : List Order) : Prop := ∀ o ∈ orders, (Entry.ofOrder o).lane? = none

/-- Arming a timer starts no pass. -/
theorem quiet_arm (l : Ledger) (n : Notification) (delay : Duration) : Quiet (l.arm n delay).2 := by
  intro o ho
  rcases List.mem_cons.1 ho with rfl | ho
  · rfl
  · -- the timer that was armed before is stopped
    obtain ⟨generation, -, rfl⟩ := by simpa using ho
    rfl

/-- Noting the end of a pass closes its entry, and starts no pass. -/
theorem closes_settle {l l' : Ledger} {b : Backoff} {n : Notification} {result : PassResult}
    {orders : List Order} {events : List LogEvent}
    (h : (l.release n.key).settle b n result = .ok (l', orders, events)) :
    l.Closes n.key l' ∧ Quiet orders := by
  -- whatever the end is, noting it touches nothing else that matters for lanes
  rcases settle_cases h with ⟨outcome, -, hl, -⟩ | ⟨e, delay, -, -, -, hl, -⟩ |
      ⟨e, -, -, rfl, rfl, -⟩
  · unfold succeed at hl
    split at hl
    · obtain ⟨rfl, rfl⟩ := Prod.mk.inj hl
      exact ⟨⟨rfl, rfl, rfl⟩, by simp [Quiet]⟩
    · obtain ⟨rfl, rfl⟩ := Prod.mk.inj hl
      exact ⟨⟨rfl, rfl, rfl⟩, quiet_arm _ _ _⟩
  · obtain ⟨rfl, rfl⟩ := Prod.mk.inj hl
    exact ⟨⟨rfl, rfl, rfl⟩, quiet_arm _ _ _⟩
  · exact ⟨⟨rfl, rfl, rfl⟩, by simp [Quiet]⟩

theorem startPending_of_none {l : Ledger} {key : ObjectKey} (h : l.pending[key]? = none) :
    l.startPending key = (l, []) := by
  simp [startPending, takePending, h]

theorem startPending_of_some {l : Ledger} {key : ObjectKey} {held rest : Pending} {r : Request}
    (h : l.pending[key]? = some held) (pop : held.pop = (rest, some r)) :
    l.startPending key =
      { l with pending := if rest.isEmpty then l.pending.erase key
          else l.pending.insert key rest }.start r := by
  simp [startPending, takePending, h, pop]

/-- Starting what is pending changes what is under way and what is pending, and nothing else. -/
theorem startPending_frame (l : Ledger) (key : ObjectKey) :
    (l.startPending key).1 =
      { l with
        inFlight := (l.startPending key).1.inFlight
        pending := (l.startPending key).1.pending } := by
  rcases hheld : l.pending[key]? with _ | held
  · rw [startPending_of_none hheld]
  · rcases hpop : held.pop with ⟨rest, _ | next⟩
    · simp only [startPending, takePending, hheld, hpop]
    · rw [startPending_of_some hheld hpop]
      rfl

section

variable {l l₁ : Ledger} {key other : ObjectKey} {lane : Lane} {next : Nat} {cur : Request}

/-- Closing the entry of another object leaves a lane alone. -/
theorem Matches.closes_other (h : l.Matches key lane) (closes : l.Closes other l₁)
    (hne : other ≠ key) : l₁.Matches key lane := by
  refine h.congr ?_ (by rw [closes.pending]) (Nat.le_of_eq closes.nextSerial.symm)
  rw [closes.inFlight, Std.ExtTreeSet.contains_erase]
  simp [hne]

/-- With nothing held back, nothing is started. -/
theorem Matches.rest (h : l.Matches key ⟨next, some cur, .empty⟩) (closes : l.Closes key l₁) :
    (l₁.startPending key).2 = [] ∧ (l₁.startPending key).1.Matches key ⟨next, none, .empty⟩ := by
  have hheld : l₁.pending[key]? = none := by
    rw [closes.pending]
    exact h.held
  rw [startPending_of_none hheld]
  refine ⟨rfl, ?_⟩
  constructor
  case busy =>
    show l₁.inFlight.contains key = false
    rw [closes.inFlight, Std.ExtTreeSet.contains_erase]
    simp
  case held => exact hheld
  case fresh =>
    show next ≤ l₁.nextSerial
    rw [closes.nextSerial]
    exact h.fresh
  case keyed => simp [Pending.empty, Pending.requests]

/-- The first request that is held back is started. -/
theorem Matches.follow {held rest : Pending} {x : Request}
    (h : l.Matches key ⟨next, some cur, held⟩) (closes : l.Closes key l₁)
    (pop : held.pop = (rest, some x)) :
    (l₁.startPending key).2 = [.start x] ∧ x.key = key ∧
      (l₁.startPending key).1.Matches key ⟨next, some x, rest⟩ := by
  have hrequests := Pending.requests_of_pop pop
  have hkeyed : ∀ r ∈ x :: rest.requests, r.key = key := by
    intro r hr
    rw [← hrequests] at hr
    exact h.keyed r (List.mem_append_right _ hr)
  have hxkey : x.key = key := hkeyed x List.mem_cons_self
  have hfilled : ¬held.isEmpty := by
    rw [Pending.isEmpty_iff]
    rintro rfl
    cases pop
  -- closing the entry under way leaves what is pending, and an entry is not empty
  have hheld : l₁.pending[key]? = some held := by
    rw [closes.pending]
    exact h.held.trans (if_neg hfilled)
  rw [startPending_of_some hheld pop]
  refine ⟨rfl, hxkey, ?_⟩
  constructor
  case busy =>
    show (l₁.inFlight.insert x.key).contains key = true
    rw [hxkey]
    exact Std.ExtTreeSet.contains_insert_self
  case held =>
    show (if rest.isEmpty then l₁.pending.erase key else l₁.pending.insert key rest)[key]? = _
    split
    · exact Std.ExtTreeMap.getElem?_erase_self
    · exact Std.ExtTreeMap.getElem?_insert_self
  case fresh =>
    show next ≤ l₁.nextSerial
    rw [closes.nextSerial]
    exact h.fresh
  case keyed => exact hkeyed

/-- Starting what is pending for another object leaves a lane alone. -/
theorem Matches.startPending_other (h : l.Matches key lane) (hne : other ≠ key)
    (keyed : ∀ held, l.pending[other]? = some held → ∀ r ∈ held.requests, r.key = other) :
    own key ((l.startPending other).2.map .ofOrder) = [] ∧
      (l.startPending other).1.Matches key lane := by
  rcases hheld : l.pending[other]? with _ | held
  · rw [startPending_of_none hheld]
    exact ⟨rfl, h⟩
  · -- what is pending for this object stays, whatever is put back for the other one
    have hpending (p : Std.ExtTreeMap ObjectKey Pending) (rest : Pending) :
        p = (if rest.isEmpty then l.pending.erase other else l.pending.insert other rest) →
          p[key]? = l.pending[key]? := by
      rintro rfl
      split
      · simp [Std.ExtTreeMap.getElem?_erase, hne]
      · simp [Std.ExtTreeMap.getElem?_insert, hne]
    rcases hpop : held.pop with ⟨rest, _ | x⟩
    · -- an empty entry would be put away, and nothing started
      simp only [startPending, takePending, hheld, hpop]
      exact ⟨rfl, h.congr rfl (hpending _ rest rfl) (Nat.le_refl _)⟩
    · have hxkey : x.key = other := keyed held hheld x (by
        rw [Pending.requests_of_pop hpop]
        exact List.mem_cons_self)
      rw [startPending_of_some hheld hpop]
      constructor
      · show own key [.started x] = []
        rw [own_cons_of_ne rfl (hxkey ▸ hne)]
        rfl
      · refine h.congr ?_ (hpending _ rest rfl) (Nat.le_refl _)
        show (l.inFlight.insert x.key).contains key = _
        rw [Std.ExtTreeSet.contains_insert, hxkey]
        simp [hne]

end

/-- The entries of an end of a pass that belong to a lane: the end, if it is of the lane, and what
is started then. -/
theorem own_complete (key : ObjectKey) (e : Entry) (events : List LogEvent)
    {orders more : List Order} (quiet : Quiet orders) :
    own key (e :: events.map .logged ++ (orders ++ more).map .ofOrder) =
      own key [e] ++ own key (more.map .ofOrder) := by
  have hlogged : own key (events.map .logged) = [] :=
    own_eq_nil fun x hx => by
      obtain ⟨_, -, rfl⟩ := List.mem_map.1 hx
      rfl
  have hquiet : own key (orders.map .ofOrder) = [] :=
    own_eq_nil fun x hx => by
      obtain ⟨o, ho, rfl⟩ := List.mem_map.1 hx
      exact quiet o ho
  rw [← List.singleton_append, List.map_append, own_append, own_append, own_append, hlogged, hquiet,
    List.append_nil, List.nil_append]

section

variable {l l' : Ledger} {b : Backoff} {r : Request} {result : PassResult} {orders : List Order}
  {events : List LogEvent} {lane : Lane}

/-- Taking the end of a pass is one step of its lane. -/
theorem Matches.complete (h : l.Matches r.key lane) (current : lane.current = some r)
    (hc : l.complete b r result = .ok (l', orders, events)) :
    ∃ lane', lane.Step
        (own r.key (.completed r result :: events.map .logged ++ orders.map .ofOrder)) lane' ∧
      l'.Matches r.key lane' := by
  obtain ⟨l₁, orders₁, hsettle, rfl, rfl⟩ := complete_cases hc
  obtain ⟨hcloses, hquiet⟩ := closes_settle (n := r.notification) hsettle
  rcases lane with ⟨next, _ | cur, held⟩
  · cases current
  · obtain rfl : cur = r := Option.some.inj current
    rw [own_complete _ _ _ hquiet, own_cons rfl]
    -- the next pass is the first of what is held, if anything is
    by_cases hempty : held = .empty
    · subst hempty
      obtain ⟨hnone, hbooks⟩ := h.rest hcloses
      refine ⟨_, ?_, hbooks⟩
      rw [show l₁.startPending cur.key = (_, []) from Prod.ext rfl hnone]
      exact .rest
    · obtain ⟨rest, x, hpop⟩ := Pending.exists_pop hempty
      obtain ⟨hstart, hxkey, hbooks⟩ := h.follow hcloses hpop
      refine ⟨_, ?_, hbooks⟩
      rw [hstart]
      show Lane.Step _ ([.completed cur result] ++ own cur.key [.started x]) _
      rw [own_cons (by rw [← hxkey]; rfl)]
      exact .follow hpop

/-- Taking the end of a pass does nothing in the lane of another object. -/
theorem Matches.complete_other {lane' : Lane} {key : ObjectKey} (h : l.Matches key lane)
    (h' : l.Matches r.key lane') (hne : r.key ≠ key)
    (hc : l.complete b r result = .ok (l', orders, events)) :
    own key (.completed r result :: events.map .logged ++ orders.map .ofOrder) = [] ∧
      l'.Matches key lane := by
  obtain ⟨l₁, orders₁, hsettle, rfl, rfl⟩ := complete_cases hc
  obtain ⟨hcloses, hquiet⟩ := closes_settle (n := r.notification) hsettle
  rw [own_complete _ _ _ hquiet, own_cons_of_ne rfl hne]
  have hkeyed (held : Pending) (found : l₁.pending[r.key]? = some held) :
      ∀ x ∈ held.requests, x.key = r.key := by
    rw [hcloses.pending] at found
    exact h'.pending_keyed found
  exact (h.closes_other hcloses hne).startPending_other hne hkeyed

end

end Ledger

end ClusterVitals
