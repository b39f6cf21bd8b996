import ClusterVitals.Proofs.LostPasses
import Mathlib.Data.List.Induction

/-!
# Nothing that was started or armed goes uncounted

The books count passes and timers, and the journal has an entry for each of them. Every pass that
was started has ended and been counted, or its object is under way. Every timer that was armed has
been heard, has been replaced, or is in the books. The counts of failures, retries and other looks
are those of the ends of passes that were taken. A retry is counted before its timer is armed, so a
controller that broke off in between has counted one retry more than there are timers.

## Shape of the proofs

`Tallies` says of an operation on the books that they change by what its entries count. It holds of
operations one after the other if it holds of each. All turns but one are such operations: when the
controller is closed, it forgets its timers. The books that are left by a controller that broke off
are one operation more on those that it had.
-/

namespace ClusterVitals

/-- The pass ended with an error. -/
def failed : PassResult → Bool
  | .error _ => true
  | .ok _ => false

theorem failed_of_retryable {result : PassResult} (h : retryable result) : failed result := by
  rcases result with e | outcome
  · rfl
  · cases h

namespace Controller

/-! ## What the journal counts -/

def Entry.result? : Entry → Option PassResult
  | .completed _ result | .brokeOff _ result => some result
  | _ => none

def Entry.replaced? : Entry → Option Nat
  | .replaced generation => some generation
  | _ => none

/-- How the passes ended whose ends were taken, in order. -/
def results (j : List Entry) : List PassResult := j.filterMap Entry.result?

/-- The generations of the timers that were replaced, in order. -/
def replacements (j : List Entry) : List Nat := j.filterMap Entry.replaced?

theorem results_append (j k : List Entry) : results (j ++ k) = results j ++ results k :=
  List.filterMap_append

theorem replacements_append (j k : List Entry) :
    replacements (j ++ k) = replacements j ++ replacements k :=
  List.filterMap_append

/-- Entries that count nothing. -/
structure Countless (es : List Entry) : Prop where
  starts : starts es = []
  results : results es = []
  armings : armings es = []
  firings : firings es = []
  replacements : replacements es = []
  breaks : breaks es = []

/-- The work of passes counts nothing. -/
theorem countless_of_work {es : List Entry} (work : ∀ e ∈ es, e.isWork) : Countless es where
  starts := starts_of_work work
  results := by
    refine List.filterMap_eq_nil_iff.2 ?_
    intro e he
    have hwork := work e he
    cases e with
    | completed r result => cases hwork
    | brokeOff r result => cases hwork
    | _ => rfl
  armings := (timeless_of_work work).1
  firings := (timeless_of_work work).2
  replacements := by
    refine List.filterMap_eq_nil_iff.2 ?_
    intro e he
    have hwork := work e he
    cases e with
    | replaced generation => cases hwork
    | _ => rfl
  breaks := breaks_of_work work

/-- Orders take no end of a pass. -/
theorem results_ofOrder (orders : List Order) : results (orders.map .ofOrder) = [] := by
  refine List.filterMap_eq_nil_iff.2 ?_
  intro e he
  obtain ⟨o, -, rfl⟩ := List.mem_map.1 he
  cases o <;> rfl

end Controller

open Controller

namespace Ledger

/-- The counts in the books change by what entries count. -/
structure Counts (l : Ledger) (es : List Entry) (l' : Ledger) : Prop where
  started : l'.stats.reconciles + l'.inFlight.size =
    l.stats.reconciles + l.inFlight.size + (starts es).length
  ended : l'.stats.reconciles = l.stats.reconciles + (results es).length
  failed : l'.stats.failures = l.stats.failures + (results es).countP failed
  retried : l'.stats.retries = l.stats.retries + (results es).countP retryable
  roused : l'.stats.retries + l'.stats.requeues =
    l.stats.retries + l.stats.requeues + (armings es).length + (breaks es).length
  armed : l'.lastGeneration = l.lastGeneration + (armings es).length

/-- So do the timers in the books. -/
structure Tallies (l : Ledger) (es : List Entry) (l' : Ledger) : Prop extends l.Counts es l' where
  timers : l'.timers.size + (firings es).length + (replacements es).length =
    l.timers.size + (armings es).length

variable {l l' l'' : Ledger} {es es' : List Entry}

theorem Counts.append (h : l.Counts es l') (h' : l'.Counts es' l'') :
    l.Counts (es ++ es') l'' where
  started := by
    rw [h'.started, h.started, starts_append, List.length_append, Nat.add_assoc]
  ended := by
    rw [h'.ended, h.ended, results_append, List.length_append, Nat.add_assoc]
  failed := by
    rw [h'.failed, h.failed, results_append, List.countP_append, Nat.add_assoc]
  retried := by
    rw [h'.retried, h.retried, results_append, List.countP_append, Nat.add_assoc]
  roused := by
    rw [h'.roused, h.roused, armings_append, breaks_append, List.length_append, List.length_append]
    omega
  armed := by
    rw [h'.armed, h.armed, armings_append, List.length_append, Nat.add_assoc]

namespace Tallies

theorem append (h : l.Tallies es l') (h' : l'.Tallies es' l'') : l.Tallies (es ++ es') l'' where
  toCounts := h.toCounts.append h'.toCounts
  timers := by
    have hfirst := h.timers
    have hsecond := h'.timers
    simp only [armings_append, firings_append, replacements_append, List.length_append]
    omega

/-- Entries that count nothing leave the counts as they are. -/
theorem of_countless (countless : Countless es) (inFlight : l'.inFlight = l.inFlight)
    (stats : l'.stats = l.stats) (timers : l'.timers = l.timers)
    (lastGeneration : l'.lastGeneration = l.lastGeneration) : l.Tallies es l' := by
  constructor
  case toCounts =>
    constructor <;>
      simp [countless.starts, countless.results, countless.armings, countless.breaks, inFlight,
        stats, lastGeneration]
  case timers => simp [countless.armings, countless.firings, countless.replacements, timers]

theorem refl (l : Ledger) : l.Tallies [] l :=
  of_countless ⟨rfl, rfl, rfl, rfl, rfl, rfl⟩ rfl rfl rfl rfl

end Tallies

/-! ## Operations on the books -/

/-- A pass that is started is one object more under way. -/
theorem tallies_start {l : Ledger} {r : Request} (free : ¬l.inFlight.contains r.key) :
    l.Tallies ((l.start r).2.map .ofOrder) (l.start r).1 := by
  have hsize : (l.inFlight.insert r.key).size = l.inFlight.size + 1 := by
    rw [Std.ExtTreeSet.size_insert, if_neg free]
  refine ⟨⟨?_, rfl, rfl, rfl, rfl, rfl⟩, rfl⟩
  show l.stats.reconciles + (l.inFlight.insert r.key).size = _ + 1
  rw [hsize, Nat.add_assoc]

/-- Taking a notification counts a pass if one is started. -/
theorem tallies_schedule (l : Ledger) (n : Notification) :
    l.Tallies (.scheduled ⟨l.nextSerial, n⟩ :: (l.schedule n).2.map .ofOrder) (l.schedule n).1 := by
  by_cases hbusy : l.inFlight.contains n.key
  · rw [schedule_of_busy hbusy]
    exact .of_countless ⟨rfl, rfl, rfl, rfl, rfl, rfl⟩ rfl rfl rfl rfl
  · rw [schedule_of_free hbusy]
    have hscheduled : l.Tallies [.scheduled ⟨l.nextSerial, n⟩]
        { l with nextSerial := l.nextSerial + 1 } :=
      .of_countless ⟨rfl, rfl, rfl, rfl, rfl, rfl⟩ rfl rfl rfl rfl
    exact hscheduled.append (tallies_start (r := ⟨l.nextSerial, n⟩) hbusy)

/-- The first request that is pending for an object is started once the object is released. -/
theorem tallies_startPending {l : Ledger} {key : ObjectKey} (free : ¬l.inFlight.contains key)
    (keyed : ∀ held, l.pending[key]? = some held → ∀ r ∈ held.requests, r.key = key) :
    l.Tallies ((l.startPending key).2.map .ofOrder) (l.startPending key).1 := by
  rcases hheld : l.pending[key]? with _ | held
  · rw [startPending_of_none hheld]
    exact .refl l
  · rcases hpop : held.pop with ⟨rest, _ | r⟩
    · simp only [startPending, takePending, hheld, hpop]
      exact .of_countless ⟨rfl, rfl, rfl, rfl, rfl, rfl⟩ rfl rfl rfl rfl
    · obtain rfl : r.key = key := keyed held hheld r (by
        rw [Pending.requests_of_pop hpop]
        exact List.mem_cons_self)
      rw [startPending_of_some hheld hpop]
      have htaken : l.Tallies [] { l with
          pending := if rest.isEmpty then l.pending.erase r.key
            else l.pending.insert r.key rest } :=
        .of_countless ⟨rfl, rfl, rfl, rfl, rfl, rfl⟩ rfl rfl rfl rfl
      exact htaken.append (tallies_start (r := r) free)

/-- Arming a timer adds one to the books, or replaces the one of its object. -/
theorem size_arm (l : Ledger) (n : Notification) (delay : Duration) :
    (l.arm n delay).1.timers.size + (replacements ((l.arm n delay).2.map .ofOrder)).length =
      l.timers.size + 1 := by
  show (l.timers.insert n.key (l.lastGeneration + 1)).size + _ = _
  rw [Std.ExtTreeMap.size_insert, Std.ExtTreeMap.contains_eq_isSome_getElem?, arm]
  rcases l.timers[n.key]? with _ | generation <;> rfl

/-- Arming a timer starts no pass and takes no message. -/
theorem armings_of_arm (l : Ledger) (n : Notification) (delay : Duration) :
    starts ((l.arm n delay).2.map .ofOrder) = [] ∧
      armings ((l.arm n delay).2.map .ofOrder) = [⟨l.lastGeneration + 1, n, delay⟩] := by
  rw [arm]
  rcases l.timers[n.key]? with _ | generation <;> exact ⟨rfl, rfl⟩

section

variable {l l₁ l' : Ledger} {b : Backoff} {r : Request} {result : PassResult}
  {orders : List Order} {events : List LogEvent}

/-- What the journal counts when the end of a pass is noted. -/
theorem tallies_completed (started : starts (orders.map .ofOrder) = [])
    (released : l'.stats.reconciles = l.stats.reconciles + 1 ∧
      l'.inFlight.size + 1 = l.inFlight.size)
    (failed : l'.stats.failures = l.stats.failures + [result].countP failed)
    (retried : l'.stats.retries = l.stats.retries + [result].countP retryable)
    (roused : l'.stats.retries + l'.stats.requeues =
      l.stats.retries + l.stats.requeues + (armings (orders.map .ofOrder)).length)
    (armed : l'.lastGeneration = l.lastGeneration + (armings (orders.map .ofOrder)).length)
    (timers : l'.timers.size + (replacements (orders.map .ofOrder)).length =
      l.timers.size + (armings (orders.map .ofOrder)).length) :
    l.Tallies (.completed r result :: events.map .logged ++ orders.map .ofOrder) l' := by
  have hquiet : Countless (events.map .logged) :=
    countless_of_work fun _ he => isWork_of_mem_logged he
  have hresults : results (.completed r result :: events.map .logged ++ orders.map .ofOrder) =
      [result] := by
    rw [results_append, results_ofOrder, List.append_nil]
    exact congrArg (result :: ·) hquiet.results
  have hreplacements : replacements
      (.completed r result :: events.map .logged ++ orders.map .ofOrder) =
        replacements (orders.map .ofOrder) := by
    rw [replacements_append]
    exact congrArg (· ++ _) hquiet.replacements
  constructor
  case toCounts =>
    constructor
    case started =>
      rw [starts_completed, started]
      show _ = l.stats.reconciles + l.inFlight.size + 0
      omega
    case ended =>
      rw [hresults]
      exact released.1
    case failed => rw [hresults, failed]
    case retried => rw [hresults, retried]
    case roused =>
      rw [armings_completed, breaks_append, breaks_ofOrder, List.append_nil, roused]
      exact congrArg (_ + List.length ·) hquiet.breaks.symm
    case armed => rw [armings_completed, armed]
  case timers =>
    rw [armings_completed, firings_completed, hreplacements]
    exact timers

/-- What the journal counts when the end of a pass is noted and a timer is armed for its object. -/
theorem tallies_completed_of_arm {l₀ : Ledger} {n : Notification} {delay : Duration}
    (arm : l₀.arm n delay = (l', orders)) (kept : l₀.timers = l.timers)
    (last : l₀.lastGeneration = l.lastGeneration)
    (released : l₀.stats.reconciles = l.stats.reconciles + 1 ∧
      l₀.inFlight.size + 1 = l.inFlight.size)
    (failed : l₀.stats.failures = l.stats.failures + [result].countP failed)
    (retried : l₀.stats.retries = l.stats.retries + [result].countP retryable)
    (roused : l₀.stats.retries + l₀.stats.requeues = l.stats.retries + l.stats.requeues + 1) :
    l.Tallies (.completed r result :: events.map .logged ++ orders.map .ofOrder) l' := by
  obtain ⟨hstarts, harmings⟩ := armings_of_arm l₀ n delay
  have hsize := size_arm l₀ n delay
  simp only [arm] at hstarts harmings hsize
  have hframe : l'.stats = l₀.stats ∧ l'.inFlight = l₀.inFlight ∧
      l'.lastGeneration = l₀.lastGeneration + 1 := by
    obtain ⟨rfl, -⟩ := Prod.mk.inj arm
    exact ⟨rfl, rfl, rfl⟩
  obtain ⟨hstats, hinFlight, hlast⟩ := hframe
  refine tallies_completed hstarts ?_ ?_ ?_ ?_ ?_ ?_
  · rwa [hstats, hinFlight]
  · rwa [hstats]
  · rwa [hstats]
  · rwa [hstats, harmings]
  · rw [hlast, last, harmings]
    rfl
  · rw [harmings, hsize, kept]
    rfl

/-- Releasing an object is one object less under way. -/
theorem size_release {l : Ledger} {key : ObjectKey} (busy : l.inFlight.contains key) :
    (l.release key).inFlight.size + 1 = l.inFlight.size := by
  have hpos : l.inFlight.size ≠ 0 := by
    intro hzero
    exact Std.ExtTreeSet.ne_empty_of_mem (Std.ExtTreeSet.contains_iff_mem.1 busy)
      (Std.ExtTreeSet.eq_empty_iff_size_eq_zero.2 hzero)
  show (l.inFlight.erase key).size + 1 = _
  rw [Std.ExtTreeSet.size_erase, if_pos busy]
  omega

/-- Noting the end of a pass releases its object, and counts how the pass ended. -/
theorem tallies_settle (busy : l.inFlight.contains r.key)
    (h : (l.release r.key).settle b r.notification result = .ok (l₁, orders, events)) :
    l.Tallies (.completed r result :: events.map .logged ++ orders.map .ofOrder) l₁ := by
  have hsize := size_release busy
  rcases settle_cases h with ⟨outcome, rfl, hl, -⟩ | ⟨e, delay, rfl, hretry, -, hl, -⟩ |
      ⟨e, rfl, hlasting, rfl, rfl, -⟩
  · rcases hdelay : outcome.requeueAfter with _ | delay
    · -- a success that asks for nothing more
      simp only [succeed, hdelay, Prod.mk.injEq] at hl
      obtain ⟨rfl, rfl⟩ := hl
      exact tallies_completed rfl ⟨rfl, hsize⟩ rfl rfl rfl rfl rfl
    · -- a success that asks for another look
      simp only [succeed, hdelay] at hl
      exact tallies_completed_of_arm hl.symm rfl rfl ⟨rfl, hsize⟩ rfl rfl rfl
  · -- a failure that is worth another try
    have hretried : [(.error e : PassResult)].countP retryable = 1 :=
      List.countP_eq_length.2 (by simpa [retryable] using hretry)
    rw [retry_countRetry] at hl
    refine tallies_completed_of_arm hl.symm rfl rfl ⟨rfl, hsize⟩ rfl ?_ (Nat.add_right_comm ..)
    rw [hretried]
    rfl
  · -- a failure for good
    have hretried : [(.error e : PassResult)].countP retryable = 0 :=
      List.countP_eq_zero.2 (by simpa [retryable] using hlasting)
    refine tallies_completed rfl ⟨rfl, hsize⟩ rfl ?_ rfl rfl rfl
    rw [hretried]
    rfl

/-- The books that are left when there is no delay for another try have counted it, and no timer was
armed. -/
theorem tallies_abandoned (busy : l.inFlight.contains r.key) (again : retryable result) :
    l.Tallies [.brokeOff r result] ((l.release r.key).countRetry r.key) := by
  have hsize := size_release busy
  have hfailed : [result].countP failed = 1 :=
    List.countP_eq_length.2 (by simpa using failed_of_retryable again)
  have hretried : [result].countP retryable = 1 := List.countP_eq_length.2 (by simpa using again)
  refine ⟨⟨?_, rfl, ?_, ?_, Nat.add_right_comm .., rfl⟩, rfl⟩
  · show l.stats.reconciles + 1 + (l.release r.key).inFlight.size =
      l.stats.reconciles + l.inFlight.size
    omega
  · exact congrArg (l.stats.failures + ·) hfailed.symm
  · exact congrArg (l.stats.retries + ·) hretried.symm

/-- Taking the end of a pass counts it, and the next pass of its object if one is started. -/
theorem tallies_complete (busy : l.inFlight.contains r.key)
    (keyed : ∀ held, l.pending[r.key]? = some held → ∀ x ∈ held.requests, x.key = r.key)
    (h : l.complete b r result = .ok (l', orders, events)) :
    l.Tallies (.completed r result :: events.map .logged ++ orders.map .ofOrder) l' := by
  obtain ⟨l₁, orders₁, hsettle, rfl, rfl⟩ := complete_cases h
  obtain ⟨hcloses, -⟩ := closes_settle (n := r.notification) hsettle
  have hfree : ¬l₁.inFlight.contains r.key := by
    rw [hcloses.inFlight, show r.notification.key = r.key from rfl, Std.ExtTreeSet.contains_erase]
    simp
  rw [← hcloses.pending] at keyed
  rw [List.map_append, ← List.append_assoc]
  exact (tallies_settle busy hsettle).append (tallies_startPending hfree keyed)

end

/-- Taking the message of the timer in the books takes the timer out of them. -/
theorem tallies_fire {l : Ledger} {ring : Ring}
    (current : l.timers[ring.notification.key]? = some ring.generation) :
    l.Tallies (.fired ring :: .scheduled ⟨l.nextSerial, ring.notification⟩ ::
        (l.fire ring.generation ring.notification).2.map .ofOrder)
      (l.fire ring.generation ring.notification).1 := by
  rw [fire, if_pos current]
  set l₁ : Ledger := { l with timers := l.timers.erase ring.notification.key }
  have hfired : l.Tallies [.fired ring] l₁ := by
    have hfound : l.timers.contains ring.notification.key := by
      rw [Std.ExtTreeMap.contains_eq_isSome_getElem?, current]
      rfl
    have hpos : l.timers.size ≠ 0 := by
      intro hzero
      have hempty := Std.ExtTreeMap.eq_empty_iff_size_eq_zero.2 hzero
      rw [hempty] at hfound
      simp at hfound
    refine ⟨⟨rfl, rfl, rfl, rfl, rfl, rfl⟩, ?_⟩
    show (l.timers.erase ring.notification.key).size + 1 + 0 = l.timers.size + 0
    rw [Std.ExtTreeMap.size_erase, if_pos hfound]
    omega
  exact hfired.append (l₁.tallies_schedule ring.notification)

end Ledger

namespace Controller

open State Ledger

variable {c : Controller} {s : State} {j : List Entry}

/-! ## Turns -/

/-- Scheduling a notification. -/
theorem tallies_state_schedule (c : Controller) (s : State) (n : Notification) :
    s.ledger.Tallies (s.schedule c n).2 (s.schedule c n).1.ledger := by
  show s.ledger.Tallies (_ :: (obeyAll c _ _).2) (obeyAll c _ _).1.ledger
  rw [obeyAll_entries, obeyAll_frame]
  exact s.ledger.tallies_schedule n

/-- The object of a pass whose end waits is under way. -/
theorem Booked.busy (h : Booked s j) {x : Completion} (waits : x ∈ s.completions) :
    s.ledger.inFlight.contains x.request.key := by
  obtain ⟨lane, hfollows, -⟩ := h x.request.key
  have hended : x.request ∈ s.ended x.request.key :=
    List.mem_filter.2 ⟨List.mem_map_of_mem waits, by simp⟩
  rw [hfollows.books.busy, hfollows.current_of_mem (List.mem_append_left _ hended)]
  rfl

/-- A turn changes the books by what its entries count, or the controller is closed and forgets its
timers. -/
theorem Booked.tallies (h : Booked s j) {out : State × List Entry} (turn : Turn c s out)
    (unbroken : out.1.phase ≠ .broken) :
    s.ledger.Tallies out.2 out.1.ledger ∨
      out.1.phase = .closing ∧ out.2 = [] ∧ out.1.ledger = { s.ledger with timers := ∅ } := by
  cases turn with
  | @receive n rest running first =>
    have hreceived : s.ledger.Tallies [.received n] s.ledger :=
      .of_countless ⟨rfl, rfl, rfl, rfl, rfl, rfl⟩ rfl rfl rfl rfl
    exact .inl (hreceived.append (tallies_state_schedule c { s with queue := rest } n))
  | @complete e rest running first =>
    left
    simp only [State.complete] at unbroken ⊢
    split at unbroken
    · exact absurd rfl unbroken
    · rename_i l orders events hc
      rw [obeyAll_entries, obeyAll_frame]
      have hbusy := h.busy (first ▸ List.mem_cons_self : e ∈ s.completions)
      obtain ⟨lane, hfollows, -⟩ := h e.request.key
      exact tallies_complete hbusy (fun _ found => hfollows.books.pending_keyed found) hc
  | @hear ring rest running first =>
    left
    simp only [State.hear]
    split
    · rw [obeyAll_entries, obeyAll_frame]
      exact tallies_fire ‹_›
    · exact .refl s.ledger
  | @begin r granted =>
    left
    rw [begin_frame]
    exact .of_countless (countless_of_work fun _ he => isWork_of_mem_begin c he) rfl rfl rfl rfl
  | resume allowed fetching elapsed =>
    exact .inl (.of_countless (countless_of_work fun _ he => isWork_of_mem_resume c he)
      rfl rfl rfl rfl)
  | close running => exact .inr ⟨rfl, rfl, rfl⟩
  | finish closing passes sleepers =>
    exact .inl (.of_countless ⟨rfl, rfl, rfl, rfl, rfl, rfl⟩ rfl rfl rfl rfl)
  | _ => exact .inl (.refl s.ledger)

theorem Booked.counts (h : Booked s j) {out : State × List Entry} (turn : Turn c s out)
    (unbroken : out.1.phase ≠ .broken) : s.ledger.Counts out.2 out.1.ledger := by
  rcases h.tallies turn unbroken with htallies | ⟨-, hentries, hledger⟩
  · exact htallies.toCounts
  · rw [hentries, hledger]
    exact ⟨rfl, rfl, rfl, rfl, rfl, rfl⟩

/-! ## Runs -/

variable {clock : Instant} {events before : List Event} {x : Completion}

/-- The counts of a controller that has not broken off are those of its journal. -/
theorem counts_of_unbroken (unbroken : (c.run (.initial clock) events).1.phase ≠ .broken) :
    Ledger.empty.Counts (c.run (.initial clock) events).2
      (c.run (.initial clock) events).1.ledger := by
  induction events using List.reverseRecOn with
  | nil => exact (Tallies.refl _).toCounts
  | append_singleton events e ih =>
    rw [run_concat] at unbroken ⊢
    have hturn := turn_step c (c.run (.initial clock) events).1 e
    exact (ih (hturn.unbroken unbroken).1).append
      ((booked_run c clock events).counts hturn unbroken)

/-- So are the timers of a controller that works. -/
theorem tallies_of_running (works : (c.run (.initial clock) events).1.phase = .running) :
    Ledger.empty.Tallies (c.run (.initial clock) events).2
      (c.run (.initial clock) events).1.ledger := by
  induction events using List.reverseRecOn with
  | nil => exact .refl _
  | append_singleton events e ih =>
    rw [run_concat] at works ⊢
    dsimp only at works
    have hturn := turn_step c (c.run (.initial clock) events).1 e
    rcases (booked_run c clock events).tallies hturn (by simp [works]) with htallies | ⟨hclosing, -⟩
    · exact (ih (hturn.running works)).append htallies
    · rw [hclosing] at works
      cases works

/-- And so are the counts and the timers in the books that a controller left. -/
theorem BrokenAt.tallies (h : BrokenAt c clock events before x) :
    Ledger.empty.Tallies (c.run (.initial clock) events).2
      (c.run (.initial clock) events).1.books := by
  have hbusy := (booked_run c clock before).busy (List.mem_of_mem_head? h.first)
  rw [h.journal, State.books, h.abandoned]
  exact (tallies_of_running h.running).append (tallies_abandoned hbusy h.again)

theorem books_of_unbroken (unbroken : (c.run (.initial clock) events).1.phase ≠ .broken) :
    (c.run (.initial clock) events).1.books = (c.run (.initial clock) events).1.ledger := by
  rw [State.books, (intact_run unbroken).1]
  rfl

/-- In the books as they stand, the counts of every run are those of its journal. -/
theorem counts_run (c : Controller) (clock : Instant) (events : List Event) :
    Ledger.empty.Counts (c.run (.initial clock) events).2
      (c.run (.initial clock) events).1.books := by
  by_cases hbroken : (c.run (.initial clock) events).1.phase = .broken
  · obtain ⟨before, x, hat⟩ := (broken_iff.1 hbroken).exists_brokenAt
    exact hat.tallies.toCounts
  · rw [books_of_unbroken hbroken]
    exact counts_of_unbroken hbroken

/-- Up to the close, so are the timers. -/
theorem tallies_of_open (opened : ¬(c.run (.initial clock) events).1.phase.isClosed) :
    Ledger.empty.Tallies (c.run (.initial clock) events).2
      (c.run (.initial clock) events).1.books := by
  by_cases hbroken : (c.run (.initial clock) events).1.phase = .broken
  · obtain ⟨before, x, hat⟩ := (broken_iff.1 hbroken).exists_brokenAt
    exact hat.tallies
  · rw [books_of_unbroken hbroken]
    refine tallies_of_running ?_
    rcases hphase : (c.run (.initial clock) events).1.phase with _ | _ | _ | _ <;>
      simp_all [Phase.isClosed]

/-- Something is held back for an object only while it is under way, unless the controller broke off
at a pass of it. -/
theorem held_back_run {key : ObjectKey} {held : Pending}
    (found : (c.run (.initial clock) events).1.books.pending[key]? = some held) :
    (c.run (.initial clock) events).1.books.inFlight.contains key ∨
      ∃ x ∈ breaks (c.run (.initial clock) events).2, x.request.key = key := by
  by_cases hbroken : (c.run (.initial clock) events).1.phase = .broken
  · obtain ⟨before, x, hat⟩ := (broken_iff.1 hbroken).exists_brokenAt
    rw [State.books, hat.abandoned] at found ⊢
    obtain ⟨hbusy, -⟩ := (run_exclusive c clock before).held_back key held found
    by_cases hkey : x.request.key = key
    · refine .inr ⟨x, ?_, hkey⟩
      rw [hat.journal, breaks_append]
      exact List.mem_append_right _ (List.mem_singleton_self _)
    · left
      show ((c.run (.initial clock) before).1.ledger.inFlight.erase x.request.key).contains key
      rw [Std.ExtTreeSet.contains_erase, hbusy]
      simpa using hkey
  · rw [books_of_unbroken hbroken] at found ⊢
    exact .inl ((run_exclusive c clock events).held_back key held found).1

/-- What the counts of a controller come to. -/
structure Conserved (c : Controller) (clock : Instant) (events : List Event) (s : State)
    (j : List Entry) : Prop where
  /-- Each pass that was started has ended and been counted, or its object is under way. -/
  started : (starts j).length = s.stats.reconciles + s.books.inFlight.size
  /-- The failures are the ends that were errors. -/
  failures : s.stats.failures = (results j).countP failed
  /-- The other ends that were counted were successes. -/
  successes : s.stats.reconciles - s.stats.failures = (results j).countP (!failed ·)
  /-- The retries are the failures that were worth another try. -/
  retries : s.stats.retries = ((results j).filter failed).countP retryable
  /-- Each timer was armed for another try or for another look, and each try and look that was
  counted has its timer, but for the one at which the controller broke off. -/
  roused : s.stats.retries + s.stats.requeues = (armings j).length + (breaks j).length
  /-- Generations are given to timers one after the other. -/
  generations : s.books.lastGeneration = (armings j).length
  /-- Each timer that was armed has been heard, has been replaced, or is in the books. -/
  timers : ¬s.phase.isClosed →
    (armings j).length = (firings j).length + (replacements j).length + s.books.timers.size
  /-- Something is held back for an object only while it is under way, unless the controller broke
  off at a pass of it. -/
  heldBack : ∀ key held, s.books.pending[key]? = some held →
    s.books.inFlight.contains key ∨ ∃ x ∈ breaks j, x.request.key = key
  /-- The controller breaks off once at most. -/
  once : (breaks j).length ≤ 1
  /-- As many timers were armed as tries and looks were counted exactly if it has not broken off. -/
  balanced : s.stats.retries + s.stats.requeues = (armings j).length ↔ ¬BreaksIn c clock events
  /-- If it has not, nothing is held back when nothing is under way. -/
  idle : ¬BreaksIn c clock events → s.books.inFlight = ∅ → s.books.pending = ∅
  /-- It never breaks off if all delays are durations. -/
  lasting : (∀ failures, (c.config.backoff.delayFor? failures).isSome) → ¬BreaksIn c clock events

/-- In every run, no pass and no timer goes uncounted, and none is counted twice, but for the timer
that was counted when the controller broke off. -/
theorem run_conserved (c : Controller) (clock : Instant) (events : List Event) :
    Conserved c clock events (c.run (.initial clock) events).1
      (c.run (.initial clock) events).2 := by
  have hcounts := counts_run c clock events
  have hended := hcounts.ended
  have hfailed := hcounts.failed
  have hroused := hcounts.roused
  rw [show Ledger.empty.stats = .zero from rfl, Stats.zero, Nat.zero_add] at hended hfailed hroused
  rw [Nat.zero_add] at hroused
  constructor
  case started =>
    have hstarted := hcounts.started
    rw [show Ledger.empty.inFlight.size = 0 from rfl] at hstarted
    exact (hstarted.trans (Nat.zero_add _)).symm
  case failures => exact hfailed
  case successes =>
    rw [State.stats, hended, hfailed, List.length_eq_countP_add_countP failed,
      Nat.add_sub_cancel_left]
    simp
  case retries =>
    rw [State.stats, hcounts.retried, List.countP_filter]
    refine (Nat.zero_add _).trans (List.countP_congr ?_)
    intro result _
    simpa using failed_of_retryable
  case roused => exact hroused
  case generations => exact hcounts.armed.trans (Nat.zero_add _)
  case timers =>
    intro opened
    have htimers := (tallies_of_open opened).timers
    rw [show Ledger.empty.timers.size = 0 from rfl] at htimers
    omega
  case heldBack => exact fun key held found => held_back_run found
  case once =>
    rw [length_breaks]
    split <;> omega
  case balanced =>
    rw [← broken_iff, State.stats, hroused, length_breaks]
    split <;> simp_all
  case idle =>
    intro unbroken hidle
    rw [Std.ExtTreeMap.eq_empty_iff_forall_contains]
    intro key
    rw [Std.ExtTreeMap.contains_eq_isSome_getElem?]
    rcases hheld : (c.run (.initial clock) events).1.books.pending[key]? with _ | held
    · rfl
    · rcases held_back_run hheld with hbusy | ⟨x, hx, -⟩
      · rw [hidle] at hbusy
        simp at hbusy
      · rw [(intact_run (mt broken_iff.1 unbroken)).2] at hx
        exact absurd hx List.not_mem_nil
  case lasting => exact not_breaksIn_of_delays

/-- With valid settings, a failed fetch is counted as a retry, and no timer is armed for it. -/
theorem Endless.retry_without_timer :
    let out := Endless.outcome ⟨"default", "web-0"⟩
    Endless.config.IsValid ∧ out.1.stats = ⟨1, 1, 1, 0⟩ ∧ armings out.2 = [] ∧
      out.1.books.lastGeneration = 0 ∧ out.1.books.inFlight.isEmpty := by
  decide +kernel

end Controller

end ClusterVitals
