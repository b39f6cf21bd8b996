import ClusterVitals.Proofs.Journal
import Mathlib.Data.List.Forall2

/-!
# Restarts are published exactly once

The effects of a run are taken apart into single calls on the tracker and on the registry. In every
run each observation that the tracker told to be new is followed at once by the call that publishes
it, and nothing else sets a gauge of the termination family.

## Shape of the proof

`Vitals.calls` gives the calls of one effect, and `performs_calls` says that performing them is what
applying the effect does. `Prompt` is the order of calls in which new observations and publications
go in pairs; `Performs.counters_sorted` is the law of the tracker between two evictions.
-/

namespace ClusterVitals

/-- The status of a container of a pod, as it was offered to the tracker. -/
structure Sighting where
  pod : ObjectKey
  status : ContainerStatus
  deriving DecidableEq, Repr

namespace Sighting

def identity (o : Sighting) : ContainerIdentity := ⟨o.pod, o.status.name⟩

def counter (o : Sighting) : Nat := o.status.restarts

/-- The gauge shows the last exit of the container: its labels name the container, the reason and
the exit code in decimal, and its value is the end of the container in whole Unix seconds. -/
def Publishes (o : Sighting) (p : Sample) : Prop :=
  ∃ t, o.status.lastTermination = some t ∧
    p.labels = .ofList [("namespace", o.pod.ns), ("pod", o.pod.name),
      ("container", o.status.name), ("reason", t.reason), ("exit_code", toString t.exitCode)] ∧
    p.value = .ofInt (t.finishedAt.nanos / nanosPerSecond)

end Sighting

/-- A call on the tracker, with what it told, or on the registry. -/
inductive Call where
  | observe (sighting : Sighting) (told : Observation)
  | evict (pod : ObjectKey)
  | set (metric : String) (sample : Sample)
  | delete (metric : String) (subset : LabelSet)
  deriving DecidableEq, Repr

namespace Call

/-- The sighting that was told to be new. -/
def newSighting? : Call → Option Sighting
  | observe o told => if told.isNew then some o else none
  | _ => none

/-- The gauge of the termination family that was set. -/
def publication? : Call → Option Sample
  | set metric p => if metric = Metrics.terminationFamily.name then some p else none
  | _ => none

/-- The call leaves the gauges of the termination family alone. -/
def Elsewhere : Call → Prop
  | set metric _ | delete metric _ => metric ≠ Metrics.terminationFamily.name
  | _ => True

theorem publication?_of_elsewhere {call : Call} (h : call.Elsewhere) :
    call.publication? = none := by
  cases call with
  | set metric p => exact if_neg h
  | _ => rfl

/-- The sightings that were told to be new, in order. -/
def newSightings (calls : List Call) : List Sighting := calls.filterMap newSighting?

/-- The gauges of the termination family that were set, in order. -/
def publications (calls : List Call) : List Sample := calls.filterMap publication?

/-- The value that was last published under labels. -/
def lastPublished (labels : LabelSet) (calls : List Call) : Option Binary64 :=
  ((publications calls).reverse.find? (·.labels = labels)).map (·.value)

/-- The counters of a container that were told to be new, in order. -/
def counters (identity : ContainerIdentity) (calls : List Call) : List Nat :=
  ((newSightings calls).filter (·.identity = identity)).map (·.counter)

end Call

open Call

namespace Vitals

/-- The calls by which an effect is applied. -/
def calls (v : Vitals) : Effect → List Call
  | .offer pod status =>
    .observe ⟨pod, status⟩ (v.tracker.observe ⟨pod, status.name⟩ status.restarts
      status.lastTermination.isSome).2 ::
      match (v.tracker.observeStatus pod status).2 with
      | none => []
      | some r => [.set Metrics.terminationFamily.name ⟨r.labels, r.value⟩]
  | .evict pod => [.evict pod]
  | .assess secret dataKey material now =>
    match Certificate.evaluate material with
    | .ok expires =>
      [.set Metrics.expirationFamily.name
        ⟨certificateLabels secret dataKey, .ofInt expires.unixSeconds⟩,
        .set Metrics.daysLeftFamily.name
          ⟨certificateLabels secret dataKey, expires.daysUntil now⟩]
    | .error _ => []
  | .clear secret =>
    [.delete Metrics.expirationFamily.name (secretLabels secret),
      .delete Metrics.daysLeftFamily.name (secretLabels secret)]
  | .report _ => []

/-- The calls by which effects are applied in order. -/
def callsAll (v : Vitals) : List Effect → List Call
  | [] => []
  | e :: rest => v.calls e ++ (v.apply e).1.callsAll rest

/-- Calls that can be performed one after the other, with the answers that the tracker gives, and
what they come to. -/
inductive Performs : Vitals → List Call → Vitals → Prop where
  | nil (v : Vitals) : Performs v [] v
  | observe {v w : Vitals} {o : Sighting} {told : Observation} {rest : List Call}
      {tracker : Tracker}
      (answer : v.tracker.observe o.identity o.counter o.status.lastTermination.isSome =
        (tracker, told))
      (after : Performs { v with tracker } rest w) : Performs v (.observe o told :: rest) w
  | evict {v w : Vitals} {pod : ObjectKey} {rest : List Call}
      (after : Performs { v with tracker := (v.tracker.evict pod).1 } rest w) :
      Performs v (.evict pod :: rest) w
  | set {v w : Vitals} {metric : String} {p : Sample} {rest : List Call}
      (after : Performs { v with registry := v.registry.set metric p.labels p.value } rest w) :
      Performs v (.set metric p :: rest) w
  | delete {v w : Vitals} {metric : String} {subset : LabelSet} {rest : List Call}
      (after : Performs { v with registry := (v.registry.deleteMatching metric subset).1 } rest w) :
      Performs v (.delete metric subset :: rest) w

theorem Performs.append {u v w : Vitals} {first second : List Call} (h : Performs u first v)
    (h' : Performs v second w) : Performs u (first ++ second) w := by
  induction h with
  | nil => exact h'
  | observe answer _ ih => exact .observe answer (ih h')
  | evict _ ih => exact .evict (ih h')
  | set _ ih => exact .set (ih h')
  | delete _ ih => exact .delete (ih h')

theorem Performs.split {u w : Vitals} {first second : List Call}
    (h : Performs u (first ++ second) w) : ∃ v, Performs u first v ∧ Performs v second w := by
  induction first generalizing u with
  | nil => exact ⟨u, .nil u, h⟩
  | cons call rest ih =>
    cases h with
    | observe answer after =>
      obtain ⟨v, hfirst, hsecond⟩ := ih after
      exact ⟨v, .observe answer hfirst, hsecond⟩
    | evict after =>
      obtain ⟨v, hfirst, hsecond⟩ := ih after
      exact ⟨v, .evict hfirst, hsecond⟩
    | set after =>
      obtain ⟨v, hfirst, hsecond⟩ := ih after
      exact ⟨v, .set hfirst, hsecond⟩
    | delete after =>
      obtain ⟨v, hfirst, hsecond⟩ := ih after
      exact ⟨v, .delete hfirst, hsecond⟩

/-- What the tracker says of a restart to report, in terms of the observation. -/
theorem observeStatus_snd (t : Tracker) (pod : ObjectKey) (status : ContainerStatus) :
    (t.observeStatus pod status).2 =
      if (t.observe ⟨pod, status.name⟩ status.restarts status.lastTermination.isSome).2.isNew then
        status.lastTermination.map fun exit => ⟨⟨pod, status.name⟩, status.restarts, exit⟩
      else none := rfl

/-- A restart is reported exactly when the observation was new. -/
theorem observeStatus_eq_some_iff {t : Tracker} {pod : ObjectKey} {status : ContainerStatus}
    {r : Restart} :
    (t.observeStatus pod status).2 = some r ↔
      (t.observe ⟨pod, status.name⟩ status.restarts status.lastTermination.isSome).2.isNew ∧
        ∃ exit, status.lastTermination = some exit ∧
          r = ⟨⟨pod, status.name⟩, status.restarts, exit⟩ := by
  rw [observeStatus_snd]
  split
  · rename_i hnew
    rw [Option.map_eq_some_iff]
    simp only [hnew, true_and, eq_comm]
  · rename_i hold
    simp [hold]

/-- An observation that is new has an exit to report. -/
theorem not_new_of_observeStatus {t : Tracker} {pod : ObjectKey} {status : ContainerStatus}
    (h : (t.observeStatus pod status).2 = none) :
    ¬(t.observe ⟨pod, status.name⟩ status.restarts status.lastTermination.isSome).2.isNew := by
  intro hnew
  rw [observeStatus_snd, if_pos hnew, Option.map_eq_none_iff] at h
  rw [h] at hnew
  simp [Tracker.observe] at hnew

/-- Performing the calls of an effect is what applying it does. -/
theorem performs_calls (v : Vitals) (e : Effect) : Performs v (v.calls e) (v.apply e).1 := by
  cases e with
  | offer pod status =>
    have answer : v.tracker.observe ⟨pod, status.name⟩ status.restarts
        status.lastTermination.isSome = ((v.tracker.observeStatus pod status).1, _) := rfl
    refine .observe answer ?_
    show Performs _ _ (v.offer pod status).1
    unfold offer
    rcases v.tracker.observeStatus pod status with ⟨tracker, _ | r⟩
    · exact .nil _
    · exact .set (.nil _)
  | evict pod => exact .evict (.nil _)
  | assess secret dataKey material now =>
    simp only [calls, apply, assess]
    rcases Certificate.evaluate material with _ | expires
    · exact .nil _
    · exact .set (.set (.nil _))
  | clear secret => exact .delete (.delete (.nil _))
  | report event => exact .nil _

/-- Performing the calls of effects is what applying them in order does. -/
theorem performs_callsAll (v : Vitals) (effects : List Effect) :
    Performs v (v.callsAll effects) (v.applyAll effects).1 := by
  induction effects generalizing v with
  | nil => exact .nil v
  | cons e rest ih => exact (performs_calls v e).append (ih (v.apply e).1)

end Vitals

/-! ## New observations and publications go in pairs -/

/-- Calls in which each new observation is followed at once by the call that publishes it, and
nothing else is published. -/
inductive Prompt : List Call → Prop where
  | nil : Prompt []
  | publish {o : Sighting} {told : Observation} {p : Sample} {rest : List Call}
      (new : told.isNew) (shows : o.Publishes p) (after : Prompt rest) :
      Prompt (.observe o told :: .set Metrics.terminationFamily.name p :: rest)
  | other {call : Call} {rest : List Call} (old : call.newSighting? = none)
      (elsewhere : call.Elsewhere) (after : Prompt rest) : Prompt (call :: rest)

namespace Prompt

theorem append {first second : List Call} (h : Prompt first) (h' : Prompt second) :
    Prompt (first ++ second) := by
  induction h with
  | nil => exact h'
  | publish new shows _ ih => exact .publish new shows ih
  | other old elsewhere _ ih => exact .other old elsewhere ih

/-- The new observations and the publications correspond one to one, in order. -/
theorem forall₂ {calls : List Call} (h : Prompt calls) :
    List.Forall₂ Sighting.Publishes (newSightings calls) (publications calls) := by
  induction h with
  | nil => exact .nil
  | @publish o told p rest new shows _ ih =>
    have hsighting : (Call.observe o told).newSighting? = some o := if_pos new
    have hset : (Call.set Metrics.terminationFamily.name p).publication? = some p := by
      simp [publication?]
    rw [newSightings, publications, List.filterMap_cons_some hsighting,
      List.filterMap_cons_none rfl, List.filterMap_cons_none rfl, List.filterMap_cons_some hset]
    exact .cons shows ih
  | other old elsewhere _ ih =>
    rw [newSightings, publications, List.filterMap_cons_none old,
      List.filterMap_cons_none (publication?_of_elsewhere elsewhere)]
    exact ih

/-- No gauge of the termination family is removed. -/
theorem not_mem_delete {calls : List Call} (h : Prompt calls) (subset : LabelSet) :
    Call.delete Metrics.terminationFamily.name subset ∉ calls := by
  induction h with
  | nil => exact List.not_mem_nil
  | publish _ _ _ ih => simpa using ih
  | @other call rest _ elsewhere _ ih =>
    intro hmem
    rcases List.mem_cons.1 hmem with rfl | hmem
    · exact elsewhere rfl
    · exact ih hmem

/-- What follows a new observation is the call that publishes it. -/
theorem published_of_new {before after : List Call} {o : Sighting} {told : Observation}
    (h : Prompt (before ++ .observe o told :: after)) (new : told.isNew) :
    ∃ p rest, after = .set Metrics.terminationFamily.name p :: rest ∧ o.Publishes p := by
  generalize hcalls : before ++ .observe o told :: after = calls at h
  -- the calls go in pairs and singles, and the observation opens a pair
  induction h generalizing before with
  | nil => simp at hcalls
  | publish _ shows _ ih =>
    rcases before with _ | ⟨first, _ | ⟨second, before⟩⟩
    · obtain ⟨⟨rfl, rfl⟩, rfl⟩ := by simpa using hcalls
      exact ⟨_, _, rfl, shows⟩
    · simp at hcalls
    · obtain ⟨-, -, hrest⟩ := by simpa using hcalls
      exact ih hrest
  | other old _ _ ih =>
    rcases before with _ | ⟨first, before⟩
    · obtain ⟨rfl, -⟩ := by simpa using hcalls
      simp [newSighting?, new] at old
    · obtain ⟨-, hrest⟩ := by simpa using hcalls
      exact ih hrest

end Prompt

theorem expirationFamily_ne : Metrics.expirationFamily.name ≠ Metrics.terminationFamily.name := by
  decide

theorem daysLeftFamily_ne : Metrics.daysLeftFamily.name ≠ Metrics.terminationFamily.name := by
  decide

/-- The restart that is reported for a sighting is published under its labels. -/
theorem Sighting.publishes_restart (o : Sighting) {exit : Termination}
    (h : o.status.lastTermination = some exit) :
    o.Publishes ⟨Restart.labels ⟨o.identity, o.counter, exit⟩,
      Restart.value ⟨o.identity, o.counter, exit⟩⟩ :=
  ⟨exit, h, rfl, rfl⟩

namespace Vitals

/-- Setting a gauge of another family publishes no restart. -/
theorem prompt_set {metric : String} (p : Sample) {rest : List Call}
    (h : metric ≠ Metrics.terminationFamily.name) (after : Prompt rest) :
    Prompt (.set metric p :: rest) :=
  .other rfl h after

/-- The calls of each effect publish what is new, and nothing else. -/
theorem prompt_calls (v : Vitals) (e : Effect) : Prompt (v.calls e) := by
  cases e with
  | offer pod status =>
    rcases hr : (v.tracker.observeStatus pod status).2 with _ | r <;> simp only [calls, hr]
    · exact .other (if_neg (not_new_of_observeStatus hr)) trivial .nil
    · obtain ⟨hnew, exit, hexit, rfl⟩ := observeStatus_eq_some_iff.1 hr
      exact .publish hnew (Sighting.publishes_restart ⟨pod, status⟩ hexit) .nil
  | evict pod => exact .other rfl trivial .nil
  | assess secret dataKey material now =>
    simp only [calls]
    rcases Certificate.evaluate material with _ | expires
    · exact .nil
    · exact prompt_set _ expirationFamily_ne (prompt_set _ daysLeftFamily_ne .nil)
  | clear secret => exact .other rfl expirationFamily_ne (.other rfl daysLeftFamily_ne .nil)
  | report event => exact .nil

theorem prompt_callsAll (v : Vitals) (effects : List Effect) : Prompt (v.callsAll effects) := by
  induction effects generalizing v with
  | nil => exact .nil
  | cons e rest ih => exact (prompt_calls v e).append (ih (v.apply e).1)

/-! ## The counters of a container -/

/-- An observation that is new exceeds the counter kept so far, and is kept instead. -/
theorem prior?_of_new {t t' : Tracker} {o : Sighting} {told : Observation} {hasExit : Bool}
    (answer : t.observe o.identity o.counter hasExit = (t', told)) (new : told.isNew) :
    (t.prior? o.identity).getD 0 < o.counter ∧
      ∀ identity, t'.prior? identity =
        if o.identity = identity then some o.counter else t.prior? identity := by
  have hcond : hasExit ∧ (t.prior? o.identity).getD 0 < o.counter := by
    by_contra hnot
    -- otherwise the tracker would not have told of it
    rw [Tracker.observe, if_neg hnot, Prod.mk.injEq] at answer
    rw [← answer.2] at new
    exact Bool.false_ne_true new
  refine ⟨hcond.2, ?_⟩
  intro identity
  have hprior := Tracker.prior?_observe t o.identity identity o.counter hasExit
  rw [answer] at hprior
  simpa [hcond.1, hcond.2] using hprior

/-- An observation that is not new leaves the counters. -/
theorem prior?_of_old {t t' : Tracker} {o : Sighting} {told : Observation} {hasExit : Bool}
    (answer : t.observe o.identity o.counter hasExit = (t', told)) (old : ¬told.isNew) :
    t' = t := by
  by_cases hcond : hasExit ∧ (t.prior? o.identity).getD 0 < o.counter
  · rw [Tracker.observe, if_pos hcond, Prod.mk.injEq] at answer
    rw [← answer.2] at old
    exact absurd rfl old
  · rw [Tracker.observe, if_neg hcond, Prod.mk.injEq] at answer
    exact answer.1.symm

theorem counters_observe_of_new {o : Sighting} {told : Observation} (new : told.isNew)
    (identity : ContainerIdentity) (rest : List Call) :
    counters identity (.observe o told :: rest) =
      if o.identity = identity then o.counter :: counters identity rest
      else counters identity rest := by
  have hcall : (Call.observe o told).newSighting? = some o := if_pos new
  rw [counters, newSightings, List.filterMap_cons_some hcall]
  by_cases h : o.identity = identity <;> simp [h, counters, newSightings]

theorem counters_of_old {call : Call} (old : call.newSighting? = none)
    (identity : ContainerIdentity) (rest : List Call) :
    counters identity (call :: rest) = counters identity rest := by
  rw [counters, newSightings, List.filterMap_cons_none old]
  rfl

theorem newSighting?_of_old {o : Sighting} {told : Observation} (old : ¬told.isNew) :
    (Call.observe o told).newSighting? = none := if_neg old

/-- While a pod is not forgotten, the counters told to be new of one of its containers increase,
from above the one kept at the start. -/
theorem Performs.counters_sorted {v w : Vitals} {calls : List Call} (h : Performs v calls w)
    {identity : ContainerIdentity} (kept : Call.evict identity.pod ∉ calls) :
    (∀ n ∈ counters identity calls, (v.tracker.prior? identity).getD 0 < n) ∧
      (counters identity calls).Pairwise (· < ·) := by
  induction h with
  | nil => exact ⟨by simp [counters, newSightings], .nil⟩
  | @observe v w o told rest tracker answer _ ih =>
    obtain ⟨habove, hsorted⟩ := ih fun hmem => kept (List.mem_cons_of_mem _ hmem)
    -- what is new exceeds the counter kept before, and all that is new later exceeds it in turn
    by_cases new : told.isNew
    · obtain ⟨hlt, hprior⟩ := prior?_of_new answer new
      rw [counters_observe_of_new new]
      split
      · rename_i hidentity
        subst hidentity
        rw [hprior, if_pos rfl] at habove
        refine ⟨?_, List.pairwise_cons.2 ⟨habove, hsorted⟩⟩
        intro n hn
        rcases List.mem_cons.1 hn with rfl | hn
        · exact hlt
        · have hcounter : o.counter < n := habove n hn
          omega
      · rename_i hidentity
        rw [hprior, if_neg hidentity] at habove
        exact ⟨habove, hsorted⟩
    · rw [counters_of_old (newSighting?_of_old new)]
      rw [prior?_of_old answer new] at habove
      exact ⟨habove, hsorted⟩
  | @evict v w pod rest _ ih =>
    obtain ⟨habove, hsorted⟩ := ih fun hmem => kept (List.mem_cons_of_mem _ hmem)
    -- another pod is forgotten, and this container stays known
    have hne : ¬identity.belongsTo pod := by
      simp only [ContainerIdentity.belongsTo, decide_eq_true_eq]
      rintro rfl
      exact kept List.mem_cons_self
    rw [Tracker.prior?_evict, if_neg hne] at habove
    exact ⟨habove, hsorted⟩
  | set _ ih => exact ih fun hmem => kept (List.mem_cons_of_mem _ hmem)
  | delete _ ih => exact ih fun hmem => kept (List.mem_cons_of_mem _ hmem)

/-- A counter that is kept was told to be new since its pod was last forgotten, or it was there at
the start. -/
theorem Performs.new_of_prior? {v w : Vitals} {calls : List Call} (h : Performs v calls w)
    {identity : ContainerIdentity} {n : Nat} (kept : w.tracker.prior? identity = some n) :
    (∃ before o told after, calls = before ++ .observe o told :: after ∧ told.isNew ∧
        o.identity = identity ∧ o.counter = n ∧ Call.evict identity.pod ∉ after) ∨
      (Call.evict identity.pod ∉ calls ∧ v.tracker.prior? identity = some n) := by
  -- a counter that is there after the first call was told by it, or was there at the start
  induction h with
  | nil => exact .inr ⟨List.not_mem_nil, kept⟩
  | @observe v w o told rest tracker answer _ ih =>
    rcases ih kept with ⟨before, o', told', after, rfl, hfound⟩ | ⟨hrest, hprior⟩
    · exact .inl ⟨.observe o told :: before, o', told', after, rfl, hfound⟩
    · by_cases new : told.isNew
      · rw [(prior?_of_new answer new).2] at hprior
        split at hprior
        · rename_i hidentity
          exact .inl ⟨[], o, told, rest, rfl, new, hidentity, Option.some.inj hprior, hrest⟩
        · exact .inr ⟨by simpa using hrest, hprior⟩
      · rw [prior?_of_old answer new] at hprior
        exact .inr ⟨by simpa using hrest, hprior⟩
  | @evict v w pod rest _ ih =>
    rcases ih kept with ⟨before, o', told', after, rfl, hfound⟩ | ⟨hrest, hprior⟩
    · exact .inl ⟨.evict pod :: before, o', told', after, rfl, hfound⟩
    · rw [Tracker.prior?_evict] at hprior
      split at hprior
      · cases hprior
      · rename_i hother
        have hne : identity.pod ≠ pod := by simpa [ContainerIdentity.belongsTo] using hother
        exact .inr ⟨by simpa [hne] using hrest, hprior⟩
  | @set v w metric p rest _ ih =>
    rcases ih kept with ⟨before, o', told', after, rfl, hfound⟩ | ⟨hrest, hprior⟩
    · exact .inl ⟨.set metric p :: before, o', told', after, rfl, hfound⟩
    · exact .inr ⟨by simpa using hrest, hprior⟩
  | @delete v w metric subset rest _ ih =>
    rcases ih kept with ⟨before, o', told', after, rfl, hfound⟩ | ⟨hrest, hprior⟩
    · exact .inl ⟨.delete metric subset :: before, o', told', after, rfl, hfound⟩
    · exact .inr ⟨by simpa using hrest, hprior⟩

/-! ## The gauges of the termination family -/

/-- As long as none is removed, a gauge of the termination family shows what was last published
under its labels. -/
theorem Performs.get?_termination {v w : Vitals} {calls : List Call} (h : Performs v calls w)
    (kept : ∀ subset, Call.delete Metrics.terminationFamily.name subset ∉ calls)
    (labels : LabelSet) :
    w.registry.get? Metrics.terminationFamily.name labels =
      (lastPublished labels calls).or
        (v.registry.get? Metrics.terminationFamily.name labels) := by
  induction h with
  | nil => rfl
  | observe _ _ ih => exact ih fun subset hmem => kept subset (List.mem_cons_of_mem _ hmem)
  | evict _ ih => exact ih fun subset hmem => kept subset (List.mem_cons_of_mem _ hmem)
  | @set v w metric p rest _ ih =>
    rw [ih fun subset hmem => kept subset (List.mem_cons_of_mem _ hmem), Registry.get?_set]
    -- a later publication under the same labels comes before this one
    by_cases hmetric : metric = Metrics.terminationFamily.name
    · have hcall : (Call.set metric p).publication? = some p := if_pos hmetric
      rw [lastPublished, lastPublished, publications, publications,
        List.filterMap_cons_some hcall, List.reverse_cons, List.find?_append, Option.map_or,
        Option.or_assoc]
      by_cases hlabels : p.labels = labels <;> simp [hmetric, hlabels]
    · have hcall : (Call.set metric p).publication? = none := if_neg hmetric
      rw [if_neg fun h => hmetric h.1, lastPublished, lastPublished, publications, publications,
        List.filterMap_cons_none hcall]
  | @delete v w metric subset rest _ ih =>
    have hmetric : metric ≠ Metrics.terminationFamily.name := by
      rintro rfl
      exact kept subset List.mem_cons_self
    rw [ih fun subset hmem => kept subset (List.mem_cons_of_mem _ hmem),
      Registry.get?_deleteMatching, if_neg fun h => hmetric h.1]
    rfl

theorem get?_initial (metric : String) (labels : LabelSet) :
    Vitals.initial.registry.get? metric labels = none := by
  simp [initial, Registry.standard, Metrics.families]

end Vitals

namespace Controller

open State

/-! ## Runs -/

/-- The effect that an entry is about. -/
def Entry.effect? : Entry → Option Effect
  | .applied effect => some effect
  | _ => none

/-- The effects of a journal, in order. -/
def effects (j : List Entry) : List Effect := j.filterMap Entry.effect?

theorem effects_append (j k : List Entry) : effects (j ++ k) = effects j ++ effects k :=
  List.filterMap_append

theorem effects_ofOrder (orders : List Order) : effects (orders.map .ofOrder) = [] := by
  induction orders with
  | nil => rfl
  | cons o rest ih => cases o <;> exact ih

theorem effects_logged (events : List LogEvent) : effects (events.map .logged) = [] := by
  induction events with
  | nil => rfl
  | cons _ rest ih => exact ih

theorem effects_applied (es : List Effect) : effects (es.map .applied) = es := by
  induction es with
  | nil => rfl
  | cons e rest ih => exact congrArg (e :: ·) ih

/-- The vitals after a turn are those before it with the effects of its entries applied. -/
def Applies (s : State) (after : State × List Entry) : Prop :=
  after.1.vitals = (s.vitals.applyAll (effects after.2)).1

variable {c : Controller}

/-- A turn without effects leaves the vitals. -/
theorem Applies.of_quiet {s : State} {after : State × List Entry}
    (vitals : after.1.vitals = s.vitals) (quiet : effects after.2 = []) : Applies s after := by
  rw [Applies, quiet, vitals]
  rfl

/-- Carrying out orders is quiet. -/
theorem quiet_obeyAll (s : State) (orders : List Order) :
    (s.obeyAll c orders).1.vitals = s.vitals ∧ effects (s.obeyAll c orders).2 = [] := by
  rw [obeyAll_frame, obeyAll_entries]
  exact ⟨rfl, effects_ofOrder orders⟩

/-- Scheduling a notification is quiet. -/
theorem quiet_schedule (s : State) (n : Notification) :
    (s.schedule c n).1.vitals = s.vitals ∧ effects (s.schedule c n).2 = [] :=
  quiet_obeyAll { s with ledger := (s.ledger.schedule n).1 } (s.ledger.schedule n).2

/-- Taking the message of a timer is quiet. -/
theorem quiet_hear (s : State) (ring : Ring) :
    (s.hear c ring).1.vitals = s.vitals ∧ effects (s.hear c ring).2 = [] := by
  unfold State.hear
  split
  · exact quiet_obeyAll { s with ledger := (s.ledger.fire ring.generation ring.notification).1 } _
  · exact ⟨rfl, rfl⟩

/-- Taking the end of a pass is quiet. -/
theorem quiet_complete (s : State) (r : Request) (result : PassResult) :
    (s.complete c r result).1.vitals = s.vitals ∧ effects (s.complete c r result).2 = [] := by
  unfold State.complete
  split
  · exact ⟨rfl, rfl⟩
  · rename_i ledger orders events _
    obtain ⟨hvitals, hquiet⟩ := quiet_obeyAll (c := c) { s with ledger } orders
    refine ⟨hvitals, ?_⟩
    show effects (events.map .logged ++ (State.obeyAll c _ _).2) = _
    rw [effects_append, effects_logged, hquiet]
    rfl

theorem effects_carryOut (s : State) (r : Request) (plan : Plan) :
    effects (s.carryOut c r plan).2 = plan.effects := by
  show effects (plan.effects.map .applied ++ List.map .logged _) = _
  rw [effects_append, effects_applied, effects_logged, List.append_nil]

theorem applies_carryOut (s : State) (r : Request) (plan : Plan) :
    Applies s (s.carryOut c r plan) := by
  rw [Applies, effects_carryOut]
  rfl

theorem applies_begin (s : State) (r : Request) : Applies s (s.begin c r) := by
  unfold State.begin
  split
  · exact .of_quiet rfl rfl
  · dsimp only
    split
    · exact applies_carryOut s r (Dispatcher.deletionPlan r.key)
    · exact .of_quiet rfl rfl

/-- The effects of a pass that has its answer are those of its plan. -/
theorem effects_resume (s : State) (r : Request) (kind : ObjectKind) (allowed : Option Nat) :
    effects (s.resume c r kind allowed).2 = (c.dispatcher.plan r.key s.clock (lateError c r) allowed
      (s.cluster.answer kind r.key).2.1).effects := by
  rw [← effects_carryOut (c := c) { s with cluster := (s.cluster.answer kind r.key).1 } r]
  unfold State.resume
  dsimp only
  split <;> rfl

theorem applies_resume (s : State) (r : Request) (kind : ObjectKind) (allowed : Option Nat) :
    Applies s (s.resume c r kind allowed) := by
  rw [Applies, effects_resume]
  rfl

/-- Every event changes the vitals by the effects of its entries. -/
theorem applies_step (s : State) (e : Event) : Applies s (c.step s e) := by
  generalize hafter : c.step s e = after
  have hturn : Turn c s after := hafter ▸ turn_step c s e
  cases hturn with
  | @receive n rest running first =>
    obtain ⟨hvitals, hquiet⟩ := quiet_schedule (c := c) { s with queue := rest } n
    exact .of_quiet hvitals hquiet
  | @complete e rest running first =>
    obtain ⟨hvitals, hquiet⟩ :=
      quiet_complete (c := c) { s with completions := rest } e.request e.result
    exact .of_quiet hvitals hquiet
  | @hear ring rest running first =>
    obtain ⟨hvitals, hquiet⟩ := quiet_hear (c := c) { s with rings := rest } ring
    exact .of_quiet hvitals hquiet
  | begin granted => exact applies_begin s _
  | resume allowed fetching elapsed => exact applies_resume s _ _ allowed
  | _ => exact .of_quiet rfl rfl

/-- A run changes the vitals by the effects of its journal. -/
theorem applies_run (s : State) (events : List Event) : Applies s (c.run s events) :=
  run_of_nil c (fun s' j => s'.vitals = (s.vitals.applyAll (effects j)).1)
    (fun s' j e h => by
      rw [effects_append, Vitals.applyAll_append, ← h]
      exact applies_step s' e)
    s events rfl

/-- The calls that a journal stands for. -/
def calls (j : List Entry) : List Call := Vitals.initial.callsAll (effects j)

end Controller

/-- Calls by which every restart was published exactly once, and the vitals they come to. -/
structure PublishedOnce (calls : List Call) (v : Vitals) : Prop where
  /-- The vitals come from the calls, in which the tracker told what it had to tell. -/
  performed : Vitals.Performs .initial calls v
  /-- A new observation is followed at once by its publication, and nothing else is published. -/
  prompt : Prompt calls
  /-- New observations and publications correspond one to one, in order, and each publication shows
  what was observed. -/
  correspond : List.Forall₂ Sighting.Publishes (newSightings calls) (publications calls)
  /-- While a pod is not forgotten, the counters published of one of its containers increase. -/
  increasing : ∀ identity before between after, calls = before ++ between ++ after →
    Call.evict identity.pod ∉ between → (counters identity between).Pairwise (· < ·)
  /-- A counter that the tracker keeps has been published since its pod was last forgotten. -/
  stored : ∀ identity n, v.tracker.prior? identity = some n →
    ∃ before o told p after,
      calls = before ++ .observe o told :: .set Metrics.terminationFamily.name p :: after ∧
        told.isNew ∧ o.identity = identity ∧ o.counter = n ∧ o.Publishes p ∧
        Call.evict identity.pod ∉ after
  /-- The gauges show what was published last under their labels. -/
  shown : ∀ labels,
    v.registry.get? Metrics.terminationFamily.name labels = lastPublished labels calls

/-- What is performed promptly from the start publishes every restart exactly once. -/
theorem PublishedOnce.of_prompt {calls : List Call} {v : Vitals}
    (performed : Vitals.Performs .initial calls v) (prompt : Prompt calls) :
    PublishedOnce calls v := by
  refine ⟨performed, prompt, prompt.forall₂, ?_, ?_, ?_⟩
  · rintro identity before between after rfl kept
    obtain ⟨u, hfirst, -⟩ := performed.split
    obtain ⟨u', -, hbetween⟩ := hfirst.split
    exact (hbetween.counters_sorted kept).2
  · intro identity n hprior
    rcases performed.new_of_prior? hprior with
      ⟨before, o, told, after, rfl, new, hidentity, hcounter, hkept⟩ | ⟨-, hinitial⟩
    · obtain ⟨p, rest, rfl, hshows⟩ := prompt.published_of_new new
      refine ⟨before, o, told, p, rest, rfl, new, hidentity, hcounter, hshows, ?_⟩
      exact fun hmem => hkept (List.mem_cons_of_mem _ hmem)
    · -- the tracker keeps nothing at the start
      rw [show Vitals.initial.tracker = Tracker.empty from rfl, Tracker.prior?_empty] at hinitial
      cases hinitial
  · intro labels
    rw [performed.get?_termination prompt.not_mem_delete labels, Vitals.get?_initial,
      Option.or_none]

/-- In every run of a controller, whatever happens in it, every restart that the tracker told to be
new is published exactly once. -/
theorem Controller.publishes_exactly_once (c : Controller) (clock : Instant)
    (events : List Controller.Event) :
    PublishedOnce (Controller.calls (c.run (.initial clock) events).2)
      (c.run (.initial clock) events).1.vitals := by
  have hvitals := applies_run (c := c) (.initial clock) events
  refine .of_prompt ?_ (Vitals.prompt_callsAll _ _)
  rw [hvitals]
  exact Vitals.performs_callsAll _ _

end ClusterVitals
