import ClusterVitals.Proofs.Interleaving
import ClusterVitals.Proofs.LostPasses

/-!
# Passes that do not go through

A pass can fail to fetch its object, can be dropped while it waits, and can run out of time between
two containers or two certificates. What it has done by then is whole, and a later pass for the
object that goes well does the rest: it comes to what it would have come to without the first one.

## Shape of the proofs

Units are what a pass looks at its deadline for, and a pass that is out of time has done the first
ones. Doing them again is done in one of two ways. A container that was offered is counted, so it is
passed over; a certificate that was read is read again, and only its last reading counts
(`Errand.units_resume`). That nothing is done for an object while its pass waits is an invariant of
runs, `Waiting`.
-/

namespace ClusterVitals

/-! ## Reports -/

/-- The effect changes nothing. -/
def Effect.isReport : Effect → Bool
  | .report _ => true
  | _ => false

namespace Vitals

/-- Without its reports, a list of effects comes to the same. -/
theorem applyAll_filter (v : Vitals) (effects : List Effect) :
    (v.applyAll (effects.filter (!·.isReport))).1 = (v.applyAll effects).1 := by
  induction effects generalizing v with
  | nil => rfl
  | cons e rest ih => cases e <;> exact ih _

/-- And it does so by the same calls. -/
theorem callsAll_filter (v : Vitals) (effects : List Effect) :
    v.callsAll (effects.filter (!·.isReport)) = v.callsAll effects := by
  induction effects generalizing v with
  | nil => rfl
  | cons e rest ih =>
    cases e with
    | report event => exact ih _
    | _ => exact congrArg (v.calls _ ++ ·) (ih _)

end Vitals

/-! ## Units -/

/-- What steps do, apart from reports. -/
def unitsOf (steps : List Step) : List Effect := (steps.map Step.effect).filter (!·.isReport)

/-- The deadline is looked at before each unit, and not before reports. -/
def Guards (steps : List Step) : Prop := ∀ step ∈ steps, step.guarded = !step.effect.isReport

theorem Guards.tail {step : Step} {rest : List Step} (h : Guards (step :: rest)) : Guards rest :=
  fun s hs => h s (List.mem_cons_of_mem _ hs)

/-- Steps are cut short if there are more units than looks that find time left, and then exactly
these units are done. -/
theorem beforeDeadline_some {steps : List Step} (guards : Guards steps) (n : Nat) :
    (beforeDeadline (some n) steps).1.filter (!·.isReport) = (unitsOf steps).take n ∧
      ((beforeDeadline (some n) steps).2 = true ↔ n < (unitsOf steps).length) := by
  induction steps generalizing n with
  | nil => simp [beforeDeadline, unitsOf]
  | cons step rest ih =>
    have hguard := guards step List.mem_cons_self
    unfold beforeDeadline
    by_cases hreport : step.effect.isReport
    · rw [hreport] at hguard
      have hunits : unitsOf (step :: rest) = unitsOf rest := by simp [unitsOf, hreport]
      rw [if_neg (by simp [hguard]), hunits, List.filter_cons_of_neg (by simpa using hreport)]
      exact ih guards.tail n
    · have hunits : unitsOf (step :: rest) = step.effect :: unitsOf rest := by
        simp [unitsOf, hreport]
      rw [if_pos (by simp [hguard, hreport]), hunits]
      cases n with
      | zero => simp
      | succ n =>
        obtain ⟨heffects, hcut⟩ := ih guards.tail n
        simp only [List.take_succ_cons, List.length_cons, Nat.add_lt_add_iff_right]
        exact ⟨by rw [List.filter_cons_of_pos (by simpa using hreport), heffects], hcut⟩

/-- Steps before a deadline do the first units, and all of them if they are not cut short. -/
theorem beforeDeadline_units {steps : List Step} (guards : Guards steps) (allowed : Option Nat) :
    ∃ k, (beforeDeadline allowed steps).1.filter (!·.isReport) = (unitsOf steps).take k ∧
      ((beforeDeadline allowed steps).2 = true ∧ allowed = some k ∧ k < (unitsOf steps).length ∨
        (beforeDeadline allowed steps).2 = false ∧ k = (unitsOf steps).length) := by
  cases allowed with
  | none =>
    refine ⟨(unitsOf steps).length, ?_, .inr ⟨by simp, rfl⟩⟩
    rw [beforeDeadline_none, List.take_length]
    rfl
  | some n =>
    obtain ⟨heffects, hcut⟩ := beforeDeadline_some guards n
    by_cases hlt : n < (unitsOf steps).length
    · exact ⟨n, heffects, .inl ⟨hcut.2 hlt, rfl, hlt⟩⟩
    · refine ⟨(unitsOf steps).length, ?_, .inr ⟨by simpa using fun h => hlt (hcut.1 h), rfl⟩⟩
      rw [heffects, List.take_length, List.take_of_length_le (Nat.not_lt.1 hlt)]

namespace Answer

/-- The object was found. -/
def isFound : Answer → Bool
  | .pod (.ok _) | .secret (.ok _) => true
  | _ => false

/-- The error of the fetch. -/
def failure? : Answer → Option Error
  | .pod (.error e) | .secret (.error e) => some e
  | _ => none

end Answer

/-- The readings of certificates at one time. -/
def readings (secret : ObjectKey) (now : Instant) (entries : List (String × List UInt8)) :
    List Effect :=
  entries.map fun entry => .assess secret entry.1 entry.2 now

/-- What a pass does for the object it found, one container or one certificate at a time: the
containers in the order of the pod, the certificates in the order of the data keys. -/
def Errand.units (e : Errand) : List Effect :=
  match e.answer with
  | .pod (.ok pod) => pod.containers.map (.offer pod.key)
  | .secret (.ok secret) => readings e.key e.clock (secret.entries.filter (·.1 ∈ certificateKeys))
  | _ => []

theorem guards_podSteps (pod : Pod) : Guards (podSteps pod) := by
  intro step hstep
  obtain ⟨status, -, rfl⟩ := List.mem_map.1 hstep
  rfl

theorem unitsOf_podSteps (pod : Pod) :
    unitsOf (podSteps pod) = pod.containers.map (.offer pod.key) := by
  rw [unitsOf, podSteps, List.map_map]
  refine List.filter_eq_self.2 ?_
  intro e he
  obtain ⟨status, -, rfl⟩ := List.mem_map.1 he
  rfl

theorem guards_secretSteps (key : ObjectKey) (now : Instant) (secret : Secret) :
    Guards (secretSteps key now secret) := by
  intro step hstep
  obtain ⟨entry, -, rfl⟩ := List.mem_map.1 hstep
  unfold slotStep
  split <;> rfl

theorem unitsOf_secretSteps (key : ObjectKey) (now : Instant) (secret : Secret) :
    unitsOf (secretSteps key now secret) =
      readings key now (secret.entries.filter (·.1 ∈ certificateKeys)) := by
  rw [unitsOf, secretSteps, List.map_map, readings]
  induction secret.entries with
  | nil => rfl
  | cons entry rest ih =>
    by_cases hkey : entry.1 ∈ certificateKeys
    · rw [List.map_cons, List.filter_cons_of_pos, List.filter_cons_of_pos, ih, List.map_cons]
      · simp [slotStep, hkey]
      · simpa using hkey
      · simp [slotStep, hkey, Effect.isReport]
    · rw [List.map_cons, List.filter_cons_of_neg, List.filter_cons_of_neg, ih]
      · simpa using hkey
      · simp [slotStep, hkey, Effect.isReport]

namespace Dispatcher

variable {d : Dispatcher} {e : Errand}

theorem exists_need (h : d.need e.notification ≠ none) :
    d.work e = d.plan e.key e.clock e.late e.allowed e.answer := by
  obtain ⟨kind, hkind⟩ := Option.ne_none_iff_exists'.1 h
  exact work_of_need_some hkind

/-- A pass that found its object takes the steps for it until its deadline. -/
theorem work_of_found (need : d.need e.notification ≠ none) (found : e.answer.isFound) :
    ∃ steps outcome, Guards steps ∧ unitsOf steps = e.units ∧
      (d.work e).effects.filter (!·.isReport) =
        (beforeDeadline e.allowed steps).1.filter (!·.isReport) ∧
      (d.work e).result =
        if (beforeDeadline e.allowed steps).2 then .error e.late else .ok outcome := by
  rw [exists_need need, Errand.units]
  rcases hanswer : e.answer with (err | pod) | (err | secret) <;> rw [hanswer] at found
  · cases found
  · exact ⟨podSteps pod, .done, guards_podSteps pod, unitsOf_podSteps pod, rfl, rfl⟩
  · cases found
  · refine ⟨secretSteps e.key e.clock secret, .requeue d.recheckInterval,
      guards_secretSteps e.key e.clock secret, unitsOf_secretSteps e.key e.clock secret, ?_, ?_⟩ <;>
      simp only [plan, certificatePlan] <;> split
    · rw [List.filter_append]
      exact List.append_nil _
    · rfl
    · rfl
    · rfl

/-- A pass that found its object does the first units for it, and all of them if it goes well. -/
theorem exists_units (need : d.need e.notification ≠ none) (found : e.answer.isFound) :
    ∃ k, (d.work e).effects.filter (!·.isReport) = e.units.take k ∧
      ((d.work e).result = .error e.late ∧ e.allowed = some k ∧ k < e.units.length ∨
        (∃ outcome, (d.work e).result = .ok outcome) ∧ k = e.units.length) := by
  obtain ⟨steps, outcome, hguards, hunits, heffects, hresult⟩ := work_of_found need found
  obtain ⟨k, htaken, hk⟩ := beforeDeadline_units hguards e.allowed
  rw [hunits] at htaken hk
  refine ⟨k, heffects.trans htaken, ?_⟩
  rw [hresult]
  rcases hk with ⟨hcut, hallowed, hlt⟩ | ⟨hcut, hall⟩
  · exact .inl ⟨by rw [if_pos hcut], hallowed, hlt⟩
  · exact .inr ⟨⟨outcome, by rw [hcut]; rfl⟩, hall⟩

/-- A pass that failed to fetch its object, or found no pod, changes nothing. -/
theorem work_of_failure {err : Error} (need : d.need e.notification ≠ none)
    (failed : e.answer = .pod (.error err) ∨ e.answer = .secret (.error err) ∧ ¬err.isNotFound)
    (v : Vitals) : (v.applyAll (d.work e).effects).1 = v := by
  rw [exists_need need]
  rcases failed with hanswer | ⟨hanswer, hfailed⟩ <;> rw [hanswer]
  · simp only [plan, podPlan]
    split <;> rfl
  · simp only [plan, certificatePlan, if_neg hfailed]
    rfl

/-- A pass that found no secret removes its gauges. -/
theorem work_of_gone {err : Error} (need : d.need e.notification ≠ none)
    (answer : e.answer = .secret (.error err)) (gone : err.isNotFound) :
    (d.work e).effects = [.clear e.key] := by
  rw [exists_need need, answer]
  simp only [plan, certificatePlan, if_pos gone]

end Dispatcher

/-! ## Units that are done again -/

namespace Vitals

/-- A container whose restarts are counted changes nothing when it is offered again. -/
theorem Counted.offer_again {v : Vitals} {pod : ObjectKey} {containers : List ContainerStatus}
    (h : v.Counted pod containers) {status : ContainerStatus} (hstatus : status ∈ containers) :
    (v.offer pod status).1 = v := by
  have hold : ¬(status.lastTermination.isSome ∧
      (v.tracker.prior? ⟨pod, status.name⟩).getD 0 < status.restarts) := by
    rintro ⟨hexit, hlt⟩
    obtain ⟨n, hn, hle⟩ := h status hstatus hexit (Nat.zero_lt_of_lt hlt)
    rw [hn, Option.getD_some] at hlt
    exact absurd hle (Nat.not_le.2 hlt)
  have hobserve : v.tracker.observeStatus pod status = (v.tracker, none) := by
    simp only [Tracker.observeStatus, Tracker.observe, if_neg hold]
    rfl
  rw [Vitals.offer, hobserve]

theorem Counted.offers_again {v : Vitals} {pod : ObjectKey} {containers : List ContainerStatus}
    (h : v.Counted pod containers) {again : List ContainerStatus}
    (hagain : ∀ status ∈ again, status ∈ containers) :
    (v.applyAll (again.map (.offer pod))).1 = v := by
  induction again with
  | nil => rfl
  | cons status rest ih =>
    show ((v.offer pod status).1.applyAll (rest.map (.offer pod))).1 = v
    rw [h.offer_again (hagain status List.mem_cons_self)]
    exact ih fun s hs => hagain s (List.mem_cons_of_mem _ hs)

/-- Containers that were offered before are passed over, up to where the others begin. -/
theorem offers_resume (v : Vitals) (pod : ObjectKey) (first rest : List ContainerStatus) :
    ((v.applyAll (first.map (.offer pod))).1.applyAll ((first ++ rest).map (.offer pod))).1 =
      (v.applyAll ((first ++ rest).map (.offer pod))).1 := by
  have hnone : v.Counted pod [] := fun _ hstatus => absurd hstatus List.not_mem_nil
  have hcounted : (v.applyAll (first.map (.offer pod))).1.Counted pod first := hnone.offers first
  rw [List.map_append, applyAll_append, applyAll_append, hcounted.offers_again fun _ hs => hs]

variable (v : Vitals) (secret : ObjectKey) {dataKey other : String}
  {material material' : List UInt8}

/-- Certificates under different data keys can be read in either order. -/
theorem assess_comm (now now' : Instant) (hne : dataKey ≠ other) :
    ((v.assess secret dataKey material now).1.assess secret other material' now').1 =
      ((v.assess secret other material' now').1.assess secret dataKey material now).1 := by
  refine @apply_comm_of_calls v (.assess secret dataKey material now)
    (.assess secret other material' now') ?_ rfl rfl
  have hlabels : certificateLabels secret dataKey ≠ certificateLabels secret other :=
    fun h => hne (certificateLabels_injective h)
  intro a ha b hb
  simp only [calls] at ha hb
  split at ha <;> split at hb
  · rcases List.mem_pair.1 ha with rfl | rfl <;> rcases List.mem_pair.1 hb with rfl | rfl <;>
      exact fun h => hlabels h.2
  · exact absurd hb List.not_mem_nil
  · exact absurd ha List.not_mem_nil
  · exact absurd ha List.not_mem_nil

/-- Only the last reading of a certificate counts. -/
theorem assess_assess (now now' : Instant) :
    ((v.assess secret dataKey material now).1.assess secret dataKey material now').1 =
      (v.assess secret dataKey material now').1 := by
  have hne : Metrics.daysLeftFamily.name ≠ Metrics.expirationFamily.name := by decide
  unfold assess
  rcases Certificate.evaluate material with _ | expires
  · rfl
  · -- the second pair of gauges is set where the first one was
    simp only [publish]
    rw [Registry.set_comm _ _ _ _ _ _ _ fun h => hne h.1, Registry.set_set, Registry.set_set]

theorem clear_clear : ((v.clear secret).1.clear secret).1 = (v.clear secret).1 := by
  -- of the four removals, those from the same family come to one
  have hremove (r : Registry) (metric other : String) (subset : LabelSet) :
      ((((r.deleteMatching metric subset).1.deleteMatching other subset).1.deleteMatching metric
        subset).1.deleteMatching other subset).1 =
          ((r.deleteMatching metric subset).1.deleteMatching other subset).1 := by
    rw [Registry.deleteMatching_comm _ other, Registry.deleteMatching_deleteMatching,
      Registry.deleteMatching_deleteMatching]
  exact congrArg (Vitals.mk v.tracker) (hremove _ _ _ _)

/-- A reading leaves no trace once all certificates are read again. -/
theorem readings_of_assess (v : Vitals) (secret : ObjectKey) (now now' : Instant)
    {entries : List (String × List UInt8)} (distinct : entries.Pairwise (·.1 ≠ ·.1))
    {entry : String × List UInt8} (h : entry ∈ entries) :
    ((v.assess secret entry.1 entry.2 now).1.applyAll (readings secret now' entries)).1 =
      (v.applyAll (readings secret now' entries)).1 := by
  induction entries generalizing v with
  | nil => exact absurd h List.not_mem_nil
  | cons first rest ih =>
    obtain ⟨hfirst, hrest⟩ := List.pairwise_cons.1 distinct
    show (((v.assess secret entry.1 entry.2 now).1.assess secret first.1 first.2 now').1.applyAll
      (readings secret now' rest)).1 = ((v.assess secret first.1 first.2 now').1.applyAll
        (readings secret now' rest)).1
    rcases List.mem_cons.1 h with rfl | h
    · rw [assess_assess]
    · rw [v.assess_comm secret now now' (hfirst entry h).symm]
      exact ih _ hrest h

/-- Whatever certificates were read before, only the last reading of all of them counts. -/
theorem readings_resume (v : Vitals) (secret : ObjectKey) (now now' : Instant)
    {entries : List (String × List UInt8)} (distinct : entries.Pairwise (·.1 ≠ ·.1))
    {before : List (String × List UInt8)} (h : ∀ entry ∈ before, entry ∈ entries) :
    ((v.applyAll (readings secret now before)).1.applyAll (readings secret now' entries)).1 =
      (v.applyAll (readings secret now' entries)).1 := by
  induction before generalizing v with
  | nil => rfl
  | cons entry rest ih =>
    refine (ih _ fun e he => h e (List.mem_cons_of_mem _ he)).trans ?_
    exact v.readings_of_assess secret now now' distinct (h entry List.mem_cons_self)

end Vitals

/-! ## Passes that are taken up again -/

namespace Errand

/-- The object was not fetched, or there was no pod. -/
def Fruitless (e : Errand) : Prop :=
  ∃ err, e.answer = .pod (.error err) ∨ e.answer = .secret (.error err) ∧ ¬err.isNotFound

/-- A pass for the same as a later one, that fetched the same or nothing. -/
structure Tries (d : Dispatcher) (earlier later : Errand) : Prop where
  key : earlier.key = later.key
  need : d.need earlier.notification = d.need later.notification
  answer : earlier.answer = later.answer ∨ earlier.Fruitless

/-- The first units that were done before leave no trace once all of them are done. -/
theorem units_resume {e later : Errand} (key : e.key = later.key) (answer : e.answer = later.answer)
    (k : Nat) (v : Vitals) :
    ((v.applyAll (e.units.take k)).1.applyAll later.units).1 = (v.applyAll later.units).1 := by
  rw [units, units, answer, key]
  rcases later.answer with (err | pod) | (err | secret)
  · rw [List.take_nil]
    rfl
  · have hresume := v.offers_resume pod.key (pod.containers.take k) (pod.containers.drop k)
    rwa [List.take_append_drop, List.map_take] at hresume
  · rw [List.take_nil]
    rfl
  · simp only [readings]
    rw [← List.map_take]
    refine v.readings_resume later.key e.clock later.clock ?_ fun entry => List.mem_of_mem_take
    exact secret.distinct_entries.sublist List.filter_sublist

end Errand

namespace Dispatcher

variable {d : Dispatcher} {e later : Errand}

/-- The work of a pass that found its object and went well comes to that of all units. -/
theorem applyAll_work (need : d.need e.notification ≠ none) (found : e.answer.isFound)
    (well : ∃ outcome, (d.work e).result = .ok outcome) (v : Vitals) :
    (v.applyAll (d.work e).effects).1 = (v.applyAll e.units).1 := by
  obtain ⟨outcome, hwell⟩ := well
  obtain ⟨k, heffects, ⟨hlate, -⟩ | ⟨-, rfl⟩⟩ := exists_units need found
  · rw [hlate] at hwell
    cases hwell
  · rw [← v.applyAll_filter, heffects, List.take_length]

/-- A pass that went well did all that it would have done without a deadline. -/
theorem applyAll_work_unhurried (well : ∃ outcome, (d.work e).result = .ok outcome) (v : Vitals) :
    (v.applyAll (d.work e).effects).1 =
      (v.applyAll (d.work { e with allowed := none }).effects).1 := by
  by_cases need : d.need e.notification = none
  · rw [work_of_need_none need, work_of_need_none (e := { e with allowed := none }) need]
    rfl
  · have need' : d.need ({ e with allowed := none } : Errand).notification ≠ none := need
    by_cases found : e.answer.isFound
    · obtain ⟨k, -, ⟨-, hallowed, -⟩ | ⟨hwell, -⟩⟩ := exists_units need' found
      · cases hallowed
      · rw [applyAll_work need found well, applyAll_work need' found hwell]
        rfl
    · rw [exists_need need, exists_need need']
      rcases hanswer : e.answer with (err | pod) | (err | secret) <;> rw [hanswer] at found
      · rfl
      · exact absurd rfl found
      · rfl
      · exact absurd rfl found

/-- What an earlier try did leaves no trace once a pass for the same goes well. -/
theorem applyAll_work_again (tries : e.Tries d later)
    (well : ∃ outcome, (d.work later).result = .ok outcome) (v : Vitals) :
    ((v.applyAll (d.work e).effects).1.applyAll (d.work later).effects).1 =
      (v.applyAll (d.work later).effects).1 := by
  by_cases need : d.need later.notification = none
  · rw [work_of_need_none need, work_of_need_none (tries.need.trans need), tries.key]
    exact congrArg (Vitals.mk · _) v.tracker.evict_evict
  · have need' : d.need e.notification ≠ none := fun h => need (tries.need.symm.trans h)
    rcases tries.answer with hanswer | ⟨err, hfailed⟩
    · by_cases found : later.answer.isFound
      · obtain ⟨k, heffects, -⟩ := exists_units need' (hanswer ▸ found)
        rw [applyAll_work need found well, applyAll_work need found well, ← v.applyAll_filter,
          heffects, Errand.units_resume tries.key hanswer]
      · rcases hlater : later.answer with (err | pod) | (err | secret)
        · rw [work_of_failure need' (.inl (hanswer.trans hlater))]
        · rw [hlater] at found
          exact absurd rfl found
        · by_cases gone : err.isNotFound
          · rw [work_of_gone need hlater gone, work_of_gone need' (hanswer.trans hlater) gone,
              tries.key]
            exact v.clear_clear later.key
          · rw [work_of_failure need' (.inr ⟨hanswer.trans hlater, gone⟩)]
        · rw [hlater] at found
          exact absurd rfl found
    · rw [work_of_failure need' hfailed]

/-- Nor do any number of earlier tries. -/
theorem applyAll_workAll_again {tries : List Errand} (h : ∀ e ∈ tries, e.Tries d later)
    (well : ∃ outcome, (d.work later).result = .ok outcome) (v : Vitals) :
    ((v.applyAll (d.workAll tries)).1.applyAll (d.work later).effects).1 =
      (v.applyAll (d.work later).effects).1 := by
  induction tries generalizing v with
  | nil => rfl
  | cons e rest ih =>
    rw [show d.workAll (e :: rest) = (d.work e).effects ++ d.workAll rest from rfl,
      Vitals.applyAll_append]
    refine (ih (fun e' he' => h e' (List.mem_cons_of_mem _ he')) _).trans ?_
    exact applyAll_work_again (h e List.mem_cons_self) well v

end Dispatcher

/-! ## Passes that are dropped -/

namespace Controller

open State

variable {c : Controller} {s : State} {j : List Entry} {r : Request}

/-- One pass of an object is under way. -/
theorem Booked.request_eq {r' : Request} (h : Booked s j) (hr : r ∈ requests s.passes)
    (hr' : r' ∈ requests s.passes) (hkey : r'.key = r.key) : r' = r := by
  obtain ⟨lane, hfollows, -⟩ := h r.key
  have hone := (hfollows.of_mem_running (List.mem_filter.2 ⟨hr, by simp⟩)).2
  have hmem : r' ∈ s.running r.key := List.mem_filter.2 ⟨hr', by simpa using hkey⟩
  rw [hone] at hmem
  exact List.mem_singleton.1 hmem

/-- A pass does something for its object only when it ends. -/
theorem Regular.untouched_of_under_way {out : State × List Entry} (h : Regular c s j)
    (turn : Turn c s out) (before : r ∈ requests s.passes) (after : r ∈ requests out.1.passes) :
    Untouched r.key out.2 := by
  intro effect hmem hsubject
  obtain ⟨r', hr', hkey, hended⟩ := h.orderly.exists_worker turn hmem hsubject
  obtain rfl := h.booked.request_eq before hr' hkey
  exact hended after

/-- An event that starts a pass does nothing else. -/
theorem effects_of_start {out : State × List Entry} (turn : Turn c s out)
    (hr : r ∈ starts out.2) : effects out.2 = [] := by
  have hwork {es : List Entry} (work : ∀ e ∈ es, e.isWork) : r ∉ starts es := by
    rw [starts_of_work work]
    exact List.not_mem_nil
  cases turn with
  | @receive n rest running first => exact (quiet_schedule (c := c) _ n).2
  | @complete e rest running first => exact (quiet_complete (c := c) _ e.request e.result).2
  | @hear ring rest running first => exact (quiet_hear (c := c) _ ring).2
  | begin granted => exact absurd hr (hwork fun _ he => isWork_of_mem_begin c he)
  | resume allowed fetching elapsed => exact absurd hr (hwork fun _ he => isWork_of_mem_resume c he)
  | _ => rfl

/-- For the object of a pass that has not ended, nothing was done since the pass was started. -/
def Waiting (s : State) (j : List Entry) : Prop :=
  ∀ r ∈ requests s.passes, ∃ before after,
    j = before ++ .started r :: after ∧ Untouched r.key after

theorem Waiting.turn {out : State × List Entry} (h : Waiting s j) (regular : Regular c s j)
    (turn : Turn c s out) : Waiting out.1 (j ++ out.2) := by
  intro r hr
  rcases turn.handles.running r hr with hbefore | hstarted
  · obtain ⟨before, after, rfl, huntouched⟩ := h r hbefore
    refine ⟨before, after ++ out.2, by rw [List.append_assoc, List.cons_append], ?_⟩
    exact huntouched.append (regular.untouched_of_under_way turn hbefore hr)
  · -- the pass is started just now, and nothing is done by the event
    obtain ⟨entry, hentry, hstart⟩ := List.mem_filterMap.1 hstarted
    obtain ⟨first, rest, hsplit⟩ := List.append_of_mem hentry
    obtain rfl : entry = .started r := by
      cases entry with
      | started r' => exact congrArg _ (Option.some.inj hstart)
      | _ => cases hstart
    refine ⟨j ++ first, rest, by rw [hsplit, List.append_assoc], ?_⟩
    have hquiet := effects_of_start turn hstarted
    rw [hsplit, effects_append, List.append_eq_nil_iff] at hquiet
    intro effect hmem
    have hrest : effects rest = [] := hquiet.2
    rw [hrest] at hmem
    exact absurd hmem List.not_mem_nil

theorem waiting_run (c : Controller) (clock : Instant) (events : List Event) :
    Waiting (c.run (.initial clock) events).1 (c.run (.initial clock) events).2 := by
  have hrun := run_of_nil c (fun s j => Regular c s j ∧ Waiting s j)
    (fun s j e ⟨hregular, hwaiting⟩ =>
      ⟨hregular.step e, hwaiting.turn hregular (turn_step c s e)⟩)
    (.initial clock) events
    ⟨regular_initial c clock, fun _ hr => absurd hr List.not_mem_nil⟩
  exact hrun.2

/-- A pass that is dropped, at its deadline or as its task ends, changes nothing. -/
theorem vitals_of_drop (s : State) {e : Event}
    (drop : ∃ serial, e = .expire serial ∨ e = .stopPass serial ∨ e = .die serial) :
    (c.step s e).1.vitals = s.vitals := by
  obtain ⟨serial, rfl | rfl | rfl⟩ := drop <;> simp only [step] <;> split
  · split <;> rfl
  · rfl
  · rfl
  · rfl
  · split <;> rfl
  · rfl

/-! ## The law -/

/-- What passes leave that do not go through, and what comes of a later pass that does. -/
structure Resumable (c : Controller) : Prop where
  /-- A pass that takes its answer does the work of its errand, and ends with its result. -/
  carried : ∀ (s : State) r kind allowed, c.dispatcher.need r.notification = some kind →
    (s.resume c r kind allowed).1.vitals =
        (s.vitals.applyAll (c.dispatcher.work (s.errand c r kind allowed)).effects).1 ∧
      (s.resume c r kind allowed).1.completions =
        s.completions ++ [⟨r, (c.dispatcher.work (s.errand c r kind allowed)).result⟩]
  /-- A pass that cannot fetch its object ends with the error of the fetch and changes nothing. -/
  failed : ∀ (e : Errand) err, c.dispatcher.need e.notification ≠ none →
    e.answer.failure? = some err → ¬err.isNotFound →
      (c.dispatcher.work e).result = .error err ∧
        ∀ v : Vitals, (v.applyAll (c.dispatcher.work e).effects).1 = v
  /-- A pass that finds no pod goes well and changes nothing. -/
  missing : ∀ (e : Errand) err, c.dispatcher.need e.notification ≠ none →
    e.answer = .pod (.error err) → err.isNotFound →
      (c.dispatcher.work e).result = .ok .done ∧
        ∀ v : Vitals, (v.applyAll (c.dispatcher.work e).effects).1 = v
  /-- In every run, nothing is done for the object of a pass from its start until it ends. -/
  waiting : ∀ clock events,
    Waiting (c.run (.initial clock) events).1 (c.run (.initial clock) events).2
  /-- A pass that is dropped, at its deadline or with its task, changes nothing. -/
  dropped : ∀ (s : State) e,
    (∃ serial, e = .expire serial ∨ e = .stopPass serial ∨ e = .die serial) →
      (c.step s e).1.vitals = s.vitals
  /-- A pass that found its object makes the calls of the first units for it, and no others. It is
  out of time if there are more units than looks at the deadline that find time left, and otherwise
  does all units and goes well. -/
  parts : ∀ e : Errand, c.dispatcher.need e.notification ≠ none → e.answer.isFound → ∃ k,
    (∀ v : Vitals,
      (v.applyAll (c.dispatcher.work e).effects).1 = (v.applyAll (e.units.take k)).1 ∧
        v.callsAll (c.dispatcher.work e).effects = v.callsAll (e.units.take k)) ∧
    ((c.dispatcher.work e).result = .error e.late ∧ e.allowed = some k ∧ k < e.units.length ∨
      (∃ outcome, (c.dispatcher.work e).result = .ok outcome) ∧ k = e.units.length)
  /-- The data entries of a secret, and with them its units, are in the order of the data keys. -/
  ordered : ∀ secret : Secret, secret.entries.Pairwise (·.1 < ·.1)
  /-- However often a pass was tried before, once it goes well it comes to what it would have come
  to at first, without a deadline. -/
  resumed : ∀ (tries : List Errand) (last : Errand), (∀ e ∈ tries, e.Tries c.dispatcher last) →
    (∃ outcome, (c.dispatcher.work last).result = .ok outcome) → ∀ v : Vitals,
      ((v.applyAll (c.dispatcher.workAll tries)).1.applyAll (c.dispatcher.work last).effects).1 =
        (v.applyAll (c.dispatcher.work { last with allowed := none }).effects).1
  /-- And so it does whatever is done for other objects in between. -/
  meanwhile : ∀ e last : Errand, e.Tries c.dispatcher last → e.Keyed →
    (∃ outcome, (c.dispatcher.work last).result = .ok outcome) →
      ∀ others : List Effect, (∀ effect ∈ others, effect.subject? ≠ some last.key) → ∀ v : Vitals,
        (((v.applyAll (c.dispatcher.work e).effects).1.applyAll others).1.applyAll
            (c.dispatcher.work last).effects).1 =
          ((v.applyAll others).1.applyAll
            (c.dispatcher.work { last with allowed := none }).effects).1
  /-- A pass that goes well changes nothing when it is repeated at the same time. -/
  repeated : ∀ e : Errand, (∃ outcome, (c.dispatcher.work e).result = .ok outcome) → ∀ v : Vitals,
    ((v.applyAll (c.dispatcher.work e).effects).1.applyAll (c.dispatcher.work e).effects).1 =
      (v.applyAll (c.dispatcher.work e).effects).1

/-- For every controller, passes that do not go through leave whole units only, and can be taken up
again. -/
theorem resumable (c : Controller) : Resumable c where
  carried s r kind allowed hneed := by
    rw [work_errand hneed]
    exact ⟨rfl, rfl⟩
  failed e err hneed hfailure hfailed := by
    have hanswer : e.answer = .pod (.error err) ∨ e.answer = .secret (.error err) := by
      rcases hanswer : e.answer with (err' | pod) | (err' | secret) <;> rw [hanswer] at hfailure <;>
        cases hfailure
      · exact .inl rfl
      · exact .inr rfl
    refine ⟨?_, Dispatcher.work_of_failure hneed (hanswer.imp id fun h => ⟨h, hfailed⟩)⟩
    rw [Dispatcher.exists_need hneed]
    rcases hanswer with hanswer | hanswer <;> rw [hanswer]
    · simp only [Dispatcher.plan, podPlan, if_neg hfailed]
    · simp only [Dispatcher.plan, certificatePlan, if_neg hfailed]
  missing e err hneed hanswer hmissing := by
    refine ⟨?_, Dispatcher.work_of_failure hneed (.inl hanswer)⟩
    rw [Dispatcher.exists_need hneed, hanswer]
    simp only [Dispatcher.plan, podPlan, if_pos hmissing]
  waiting := waiting_run c
  dropped s _ drop := vitals_of_drop s drop
  parts e hneed hfound := by
    obtain ⟨k, heffects, hk⟩ := Dispatcher.exists_units hneed hfound
    refine ⟨k, fun v => ⟨?_, ?_⟩, hk⟩
    · rw [← v.applyAll_filter, heffects]
    · rw [← v.callsAll_filter, heffects]
  ordered := Secret.ordered_entries
  resumed tries last htries well v := by
    rw [Dispatcher.applyAll_workAll_again htries well v, Dispatcher.applyAll_work_unhurried well v]
  meanwhile e last htries hkeyed well others hothers v := by
    have hapart : ∀ effect ∈ (c.dispatcher.work e).effects, ∀ other ∈ others,
        effect.Apart other := by
      intro effect heffect other hother key hkey
      rcases c.dispatcher.subject_work hkeyed heffect with hnone | hone
      · rw [hnone] at hkey
        cases hkey
      · rw [hone] at hkey
        rw [← Option.some.inj hkey, htries.key]
        exact hothers other hother
    rw [v.applyAll_comm hapart, Dispatcher.applyAll_work_again htries well,
      Dispatcher.applyAll_work_unhurried well]
  repeated e well v := Dispatcher.applyAll_work_again ⟨rfl, rfl, .inl rfl⟩ well v

end Controller

end ClusterVitals
