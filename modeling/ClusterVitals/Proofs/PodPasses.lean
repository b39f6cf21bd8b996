import ClusterVitals.Proofs.Arrivals
import ClusterVitals.Proofs.Publication

/-!
# Passes of pods

What a pass of a pod does and how it can end. Only passes for changes fetch a pod and offer the
status of its containers to the tracker, and only those can fail. A pass for a deletion always
succeeds, and once it has ended the tracker knows nothing of the pod until a pass for a change goes
on.
-/

namespace ClusterVitals

/-! ## What the tracker knows of a pod -/

namespace Vitals

/-- The tracker knows nothing of a pod. -/
def Forgot (v : Vitals) (pod : ObjectKey) : Prop :=
  ∀ identity : ContainerIdentity, identity.pod = pod → v.tracker.prior? identity = none

theorem tracker_offer (v : Vitals) (pod : ObjectKey) (status : ContainerStatus) :
    (v.offer pod status).1.tracker = (v.tracker.observeStatus pod status).1 := by
  unfold offer
  rcases v.tracker.observeStatus pod status with ⟨tracker, _ | r⟩ <;> rfl

theorem tracker_assess (v : Vitals) (secret : ObjectKey) (dataKey : String)
    (material : List UInt8) (now : Instant) :
    (v.assess secret dataKey material now).1.tracker = v.tracker := by
  unfold assess
  split <;> rfl

theorem forgot_evict (v : Vitals) (pod : ObjectKey) : (v.evict pod).1.Forgot pod := by
  intro identity hpod
  show (v.tracker.evict pod).1.prior? identity = none
  rw [Tracker.prior?_evict, if_pos (by simpa [ContainerIdentity.belongsTo] using hpod)]

/-- Only what is offered of a pod lets the tracker know of it. -/
theorem Forgot.apply {v : Vitals} {pod : ObjectKey} (h : v.Forgot pod) {effect : Effect}
    (other : ∀ status, effect ≠ .offer pod status) : (v.apply effect).1.Forgot pod := by
  intro identity hpod
  cases effect with
  | offer p status =>
    -- what is offered is of another pod, so it is about another container
    have hne : ¬(⟨p, status.name⟩ : ContainerIdentity) = identity := by
      rintro rfl
      exact other status (by rw [← hpod])
    show (v.offer p status).1.tracker.prior? identity = none
    rw [tracker_offer]
    show (v.tracker.observe ⟨p, status.name⟩ _ _).1.prior? identity = none
    rw [Tracker.prior?_observe, if_neg fun h' => hne h'.2.2]
    exact h identity hpod
  | evict p =>
    show (v.tracker.evict p).1.prior? identity = none
    rw [Tracker.prior?_evict]
    split
    · rfl
    · exact h identity hpod
  | assess secret dataKey material now =>
    show (v.assess secret dataKey material now).1.tracker.prior? identity = none
    rw [tracker_assess]
    exact h identity hpod
  | clear secret => exact h identity hpod
  | report event => exact h identity hpod

theorem Forgot.applyAll {v : Vitals} {pod : ObjectKey} (h : v.Forgot pod) {effects : List Effect}
    (other : ∀ status, .offer pod status ∉ effects) : (v.applyAll effects).1.Forgot pod := by
  induction effects generalizing v with
  | nil => exact h
  | cons effect rest ih =>
    have hfirst : (v.apply effect).1.Forgot pod := by
      refine h.apply fun status heq => other status ?_
      rw [heq]
      exact List.mem_cons_self
    exact ih hfirst fun status hmem => other status (List.mem_cons_of_mem _ hmem)

end Vitals

/-! ## Answers and plans -/

namespace Cluster

/-- Pods are kept under their own keys. -/
def Keyed (c : Cluster) : Prop :=
  ∀ (key : ObjectKey) (pod : Pod), c.pods[key]? = some pod → pod.key = key

theorem keyed_empty : empty.Keyed := by simp [Keyed, empty]

theorem Keyed.change {c : Cluster} (h : c.Keyed) (change : Controller.ClusterChange) :
    (change.apply c).Keyed := by
  cases change with
  | putPod pod =>
    intro key found hfound
    have hfound : (c.pods.insert pod.key pod)[key]? = some found := hfound
    rw [Std.ExtTreeMap.getElem?_insert] at hfound
    split at hfound
    · rename_i hkey
      rw [← Option.some.inj hfound]
      simpa using hkey
    · exact h key found hfound
  | removePod pod =>
    intro key found hfound
    have hfound : (c.pods.erase pod)[key]? = some found := hfound
    rw [Std.ExtTreeMap.getElem?_erase] at hfound
    split at hfound
    · cases hfound
    · exact h key found hfound
  | putSecret secret => exact h
  | removeSecret key => exact h
  | inject faults => exact h

theorem Keyed.countFetch {c : Cluster} (h : c.Keyed) (kind : ObjectKind) :
    (c.countFetch kind).Keyed := by
  cases kind <;> exact h

theorem Keyed.answer {c : Cluster} (h : c.Keyed) (kind : ObjectKind) (key : ObjectKey) :
    (c.answer kind key).1.Keyed := by
  unfold Cluster.answer
  split <;> exact h

/-- A fetch of a pod finds this pod, or fails. -/
theorem Keyed.answer_pod {c : Cluster} (h : c.Keyed) (key : ObjectKey) :
    ∃ found, (c.answer .pod key).2.1 = .pod found ∧ ∀ pod, found = .ok pod → pod.key = key := by
  unfold Cluster.answer
  split
  · refine ⟨_, rfl, fun pod hpod => h key pod ?_⟩
    rcases hfound : c.pods[key]? with _ | found
    · simp [hfound] at hpod
    · simpa [hfound] using hpod
  · exact ⟨_, rfl, by simp⟩

theorem answer_secret (c : Cluster) (key : ObjectKey) :
    ∃ found, (c.answer .secret key).2.1 = .secret found := by
  unfold Cluster.answer
  split <;> exact ⟨_, rfl⟩

end Cluster

/-- What a pass offers of a pod that it found are the containers of this pod. -/
theorem offers_podPlan {key pod : ObjectKey} {late : Error} {allowed : Option Nat}
    {found : Except Error Pod} {status : ContainerStatus} (keyed : ∀ p, found = .ok p → p.key = key)
    (h : .offer pod status ∈ (podPlan key late allowed found).effects) : pod = key := by
  rcases found with e | p
  · simp only [podPlan] at h
    split at h <;> simp at h
  · -- before the deadline or not, the steps are those of the pod that was found
    have hmem := (beforeDeadline_isPrefixOf allowed (podSteps p)).subset h
    obtain ⟨step, hstep, heq⟩ := List.mem_map.1 hmem
    obtain ⟨container, -, rfl⟩ := List.mem_map.1 hstep
    obtain ⟨rfl, -⟩ := Effect.offer.inj heq
    exact keyed p rfl

theorem result_podPlan {key : ObjectKey} {late : Error} {allowed : Option Nat}
    {found : Except Error Pod} {outcome : Outcome}
    (h : (podPlan key late allowed found).result = .ok outcome) : outcome = .done := by
  rcases found with e | p
  · simp only [podPlan] at h
    split at h
    · exact (Except.ok.inj h).symm
    · cases h
  · simp only [podPlan] at h
    split at h
    · cases h
    · exact (Except.ok.inj h).symm

/-- A pass of the secret offers nothing. -/
theorem not_offer_certificatePlan {key pod : ObjectKey} {interval : Duration} {now : Instant}
    {late : Error} {allowed : Option Nat} {found : Except Error Secret} {status : ContainerStatus} :
    .offer pod status ∉ (certificatePlan key interval now late allowed found).effects := by
  have hslot (entry : String × List UInt8) :
      (slotStep key now entry).effect ≠ .offer pod status := by
    unfold slotStep
    split <;> simp
  intro h
  rcases found with e | secret
  · simp only [certificatePlan] at h
    split at h <;> simp at h
  · -- each slot is assessed or reported
    have hmem : .offer pod status ∈ (beforeDeadline allowed (secretSteps key now secret)).1 := by
      simp only [certificatePlan] at h
      split at h
      · simpa using h
      · exact h
    have hmem := (beforeDeadline_isPrefixOf allowed (secretSteps key now secret)).subset hmem
    obtain ⟨step, hstep, heq⟩ := List.mem_map.1 hmem
    obtain ⟨entry, -, rfl⟩ := List.mem_map.1 hstep
    exact hslot entry heq

namespace Controller

open State

/-- Notifications for an object are taken for those of a pod. -/
def IsPod (c : Controller) (key : ObjectKey) : Prop := c.dispatcher.route key = .podRestart

section

variable {c : Controller} {n : Notification}

theorem need_of_pod {kind : ObjectKind} (pod : c.IsPod n.key)
    (need : c.dispatcher.need n = some kind) : kind = .pod ∧ n.kind = .changed := by
  have hroute : c.dispatcher.route n.key = .podRestart := pod
  rw [Dispatcher.need, hroute] at need
  rcases hkind : n.kind with _ | _
  · rw [hkind] at need
    exact ⟨(Option.some.inj need).symm, rfl⟩
  · rw [hkind] at need
    cases need

theorem need_of_not_pod {kind : ObjectKind} (pod : ¬c.IsPod n.key)
    (need : c.dispatcher.need n = some kind) : kind = .secret := by
  rcases hroute : c.dispatcher.route n.key with _ | _
  · rw [Dispatcher.need, hroute] at need
    exact (Option.some.inj need).symm
  · exact absurd hroute pod

end

/-! ## Fetches -/

/-- A pass fetches its object. -/
def Pass.Fetches (p : Pass) (kind : ObjectKind) : Prop :=
  ∃ since ready, p.stage = .fetching kind since ready

/-- Giving slots lets no pass fetch. -/
theorem mem_of_mem_grantFirst {free : Nat} {passes : List Pass} {p : Pass} {kind : ObjectKind}
    (fetches : p.Fetches kind) (h : p ∈ grantFirst free passes) : p ∈ passes := by
  induction passes generalizing free with
  | nil => cases free <;> exact h
  | cons q rest ih =>
    cases free with
    | zero => exact h
    | succ free =>
      unfold grantFirst at h
      split at h
      · rcases List.mem_cons.1 h with rfl | h
        · exact List.mem_cons_self
        · exact List.mem_cons_of_mem _ (ih h)
      · -- a pass that gets its slot fetches nothing yet
        rcases List.mem_cons.1 h with rfl | h
        · obtain ⟨since, ready, hstage⟩ := fetches
          cases hstage
        · exact List.mem_cons_of_mem _ (ih h)

theorem mem_of_mem_endPass {c : Controller} {s : State} {serial : Nat} {p : Pass}
    {kind : ObjectKind} (fetches : p.Fetches kind) (h : p ∈ (s.endPass c serial).passes) :
    p ∈ s.passes :=
  (List.mem_filter.1 (mem_of_mem_grantFirst fetches h)).1

theorem mem_of_mem_obeyAll {c : Controller} {s : State} {orders : List Order} {p : Pass}
    {kind : ObjectKind} (fetches : p.Fetches kind) (h : p ∈ (s.obeyAll c orders).1.passes) :
    p ∈ s.passes := by
  induction orders generalizing s with
  | nil => exact h
  | cons o rest ih =>
    have h : p ∈ (s.obey c o).1.passes := ih h
    cases o with
    | start r =>
      rcases List.mem_append.1 (mem_of_mem_grantFirst fetches h) with h | h
      · exact h
      · obtain ⟨since, ready, hstage⟩ := fetches
        rw [List.mem_singleton.1 h] at hstage
        cases hstage
    | arm t => exact h
    | stop generation => exact h

/-! ## How passes of pods end -/

/-- How a pass of a pod can end: it asks for no other look, and for a deletion it succeeds. -/
structure PodEnd (r : Request) (result : PassResult) : Prop where
  done : ∀ outcome, result = .ok outcome → outcome = .done
  deleted : r.kind = .deleted → result = .ok .done

/-- A pass for a change can end in any way but with another look. -/
theorem PodEnd.of_changed {r : Request} {result : PassResult} (changed : r.kind = .changed)
    (done : ∀ outcome, result = .ok outcome → outcome = .done) : PodEnd r result where
  done := done
  deleted hdeleted := by
    rw [changed] at hdeleted
    cases hdeleted

/-- A pass for a deletion does not fail. -/
theorem PodEnd.changed_of_retryable {r : Request} {result : PassResult} (h : PodEnd r result)
    (again : retryable result) : r.kind = .changed := by
  rcases hkind : r.kind with _ | _
  · rfl
  · rw [h.deleted hkind] at again
    cases again

/-- A timer is armed for a pod only for another try. -/
theorem PodEnd.wakeUp?_of_lasting {r : Request} {result : PassResult} (h : PodEnd r result)
    (lasting : ¬retryable result) : wakeUp? r result = none := by
  rcases result with e | outcome
  · exact if_neg lasting
  · rw [h.done outcome rfl]
    rfl

/-- What is kept of the passes that fetch and of those that have ended. -/
structure Orderly (c : Controller) (s : State) : Prop where
  keyed : s.cluster.Keyed
  needed : ∀ p ∈ s.passes, ∀ kind, p.Fetches kind →
    c.dispatcher.need p.request.notification = some kind
  ends : ∀ e ∈ s.completions, c.IsPod e.request.key → PodEnd e.request e.result
  /-- Until the end of a pass for a deletion is taken, the tracker knows nothing of the pod. -/
  forgotten : ∀ e ∈ s.completions, c.IsPod e.request.key → e.request.kind = .deleted →
    s.vitals.Forgot e.request.key

theorem orderly_initial (c : Controller) (clock : Instant) : Orderly c (.initial clock) where
  keyed := Cluster.keyed_empty
  needed := by simp [State.initial]
  ends := by simp [State.initial]
  forgotten := by simp [State.initial]

/-- A pass under way has no end of a pass of its object beside it. -/
theorem Booked.alone {s : State} {j : List Entry} (h : Booked s j) {r : Request}
    (hr : r ∈ requests s.passes) : ∀ e ∈ s.completions, e.request.key ≠ r.key := by
  intro e he hkey
  obtain ⟨lane, hfollows, -⟩ := h r.key
  have hended := (hfollows.of_mem_running (List.mem_filter.2 ⟨hr, by simp⟩)).1
  have hmem : e.request ∈ s.ended r.key :=
    List.mem_filter.2 ⟨List.mem_map_of_mem he, by simpa using hkey⟩
  rw [hended] at hmem
  exact absurd hmem List.not_mem_nil

/-- A pass of a pod that fetches is one for a change. -/
theorem Orderly.changed_of_fetching {c : Controller} {s : State} (h : Orderly c s) {r : Request}
    {kind : ObjectKind} {since ready : Nat} (fetching : ⟨r, .fetching kind since ready⟩ ∈ s.passes)
    (pod : c.IsPod r.key) : r.kind = .changed :=
  (need_of_pod pod (h.needed _ fetching kind ⟨since, ready, rfl⟩)).2

/-- What the plan of a pass that has its answer can be: it offers containers of the object of the
pass only, and only in a pass for a change, and a pass of a pod asks for no other look. -/
theorem Orderly.plan {c : Controller} {s : State} (h : Orderly c s) {r : Request}
    {kind : ObjectKind} (need : c.dispatcher.need r.notification = some kind) (late : Error)
    (allowed : Option Nat) {plan : Plan}
    (hplan : plan = c.dispatcher.plan r.key s.clock late allowed
      (s.cluster.answer kind r.key).2.1) :
    (∀ pod status, .offer pod status ∈ plan.effects → pod = r.key ∧ r.kind = .changed) ∧
      (c.IsPod r.key → PodEnd r plan.result) := by
  subst hplan
  -- the plan is of the kind that the pass needed, which depends on the route of its object
  by_cases hpod : c.IsPod r.key
  · obtain ⟨rfl, hchanged⟩ := need_of_pod (n := r.notification) hpod need
    have hchanged : r.kind = .changed := hchanged
    obtain ⟨found, hanswer, hkeyed⟩ := h.keyed.answer_pod r.key
    rw [hanswer]
    exact ⟨fun pod status hmem => ⟨offers_podPlan hkeyed hmem, hchanged⟩,
      fun _ => .of_changed hchanged fun outcome houtcome => result_podPlan houtcome⟩
  · obtain rfl := need_of_not_pod (n := r.notification) hpod need
    obtain ⟨found, hanswer⟩ := s.cluster.answer_secret r.key
    rw [hanswer]
    exact ⟨fun pod status hmem => absurd hmem not_offer_certificatePlan,
      fun h' => absurd h' hpod⟩

namespace Orderly

variable {c : Controller} {s s' : State}

/-- A turn in which no pass fetches, ends or does anything. -/
theorem frame (h : Orderly c s) (keyed : s'.cluster.Keyed)
    (passes : ∀ p ∈ s'.passes, ∀ kind, p.Fetches kind → p ∈ s.passes)
    (completions : ∀ e ∈ s'.completions, e ∈ s.completions) (vitals : s'.vitals = s.vitals) :
    Orderly c s' where
  keyed := keyed
  needed p hp kind hfetches := h.needed p (passes p hp kind hfetches) kind hfetches
  ends e he := h.ends e (completions e he)
  forgotten e he hpod hdeleted := vitals ▸ h.forgotten e (completions e he) hpod hdeleted

theorem obeyAll (h : Orderly c s) (orders : List Order) : Orderly c (s.obeyAll c orders).1 := by
  refine h.frame ?_ (fun p hp kind hfetches => mem_of_mem_obeyAll hfetches hp) ?_ ?_
  · rw [obeyAll_frame]
    exact h.keyed
  · rw [obeyAll_frame]
    exact fun e he => he
  · rw [obeyAll_frame]

theorem endPass (h : Orderly c s) (serial : Nat) : Orderly c (s.endPass c serial) :=
  h.frame h.keyed (fun _ hp _ hfetches => mem_of_mem_endPass hfetches hp) (fun _ he => he) rfl

/-- A pass that ends with a result. -/
theorem leaveResult (h : Orderly c s) {r : Request} {result : PassResult}
    (podEnd : c.IsPod r.key → PodEnd r result)
    (forgot : c.IsPod r.key → r.kind = .deleted → s.vitals.Forgot r.key) :
    Orderly c (s.leaveResult c r result) where
  keyed := h.keyed
  needed p hp kind hfetches := h.needed p (mem_of_mem_endPass hfetches hp) kind hfetches
  ends e he hpod := by
    rcases List.mem_append.1 he with he | he
    · exact h.ends e he hpod
    · rw [List.mem_singleton] at he
      rw [he] at hpod ⊢
      exact podEnd hpod
  forgotten e he hpod hdeleted := by
    rcases List.mem_append.1 he with he | he
    · exact h.forgotten e he hpod hdeleted
    · rw [List.mem_singleton] at he
      rw [he] at hpod hdeleted ⊢
      exact forgot hpod hdeleted

/-- A pass that does its work offers containers of its own object only, so what is forgotten of
other pods stays so. -/
theorem carryOut (h : Orderly c s) {r : Request} {plan : Plan}
    (offers : ∀ pod status, .offer pod status ∈ plan.effects → pod = r.key)
    (alone : ∀ e ∈ s.completions, e.request.key ≠ r.key)
    (podEnd : c.IsPod r.key → PodEnd r plan.result)
    (forgot : c.IsPod r.key → r.kind = .deleted →
      (s.vitals.applyAll plan.effects).1.Forgot r.key) : Orderly c (s.carryOut c r plan).1 := by
  have hs : Orderly c { s with vitals := (s.vitals.applyAll plan.effects).1 } := by
    refine ⟨h.keyed, h.needed, h.ends, ?_⟩
    intro e he hpod hdeleted
    refine (h.forgotten e he hpod hdeleted).applyAll ?_
    intro status hmem
    exact alone e he (offers _ status hmem)
  exact hs.leaveResult podEnd forgot

theorem begin {j : List Entry} (h : Orderly c s) (booked : Booked s j) (numbered : Numbered s j)
    {r : Request} (granted : ⟨r, .granted⟩ ∈ s.passes) : Orderly c (s.begin c r).1 := by
  simp only [State.begin]
  split
  · exact h.endPass _
  · split
    · -- a deletion evicts the pod, and fetches nothing
      refine h.carryOut ?_ (booked.alone (List.mem_map_of_mem granted))
        (fun _ => ⟨fun outcome houtcome => (Except.ok.inj houtcome).symm, fun _ => rfl⟩)
        fun _ _ => s.vitals.forgot_evict r.key
      intro pod status hmem
      simp [Dispatcher.deletionPlan] at hmem
    · rename_i kind hneed
      refine ⟨h.keyed.countFetch kind, ?_, h.ends, h.forgotten⟩
      intro p hp other hfetches
      obtain ⟨q, hq, rfl⟩ := List.mem_map.1 hp
      split at hfetches
      · rename_i hserial
        -- the pass that starts is the only one of its serial
        obtain rfl := booked.pass_eq_of_serial numbered hq granted (by simpa using hserial)
        obtain ⟨since, ready, hstage⟩ := hfetches
        obtain ⟨rfl, -⟩ := Stage.fetching.inj hstage
        simpa using hneed
      · rename_i hserial
        simpa [hserial] using h.needed q hq other hfetches

theorem resume {j : List Entry} (h : Orderly c s) (booked : Booked s j) {r : Request}
    {kind : ObjectKind} {since ready : Nat} (allowed : Option Nat)
    (fetching : ⟨r, .fetching kind since ready⟩ ∈ s.passes) :
    Orderly c (s.resume c r kind allowed).1 := by
  obtain ⟨hoffers, hend⟩ :=
    h.plan (h.needed _ fetching kind ⟨since, ready, rfl⟩) (lateError c r) allowed rfl
  -- the answer comes before the work, and a pass that fetches a pod is not for a deletion
  have hs : Orderly c { s with cluster := (s.cluster.answer kind r.key).1 } :=
    h.frame (h.keyed.answer kind r.key) (fun _ hp _ _ => hp) (fun _ he => he) rfl
  refine hs.carryOut (fun pod status hoffer => (hoffers pod status hoffer).1)
    (booked.alone (List.mem_map_of_mem fetching)) hend ?_
  intro hpod hdeleted
  rw [h.changed_of_fetching fetching hpod] at hdeleted
  cases hdeleted

theorem expire (h : Orderly c s) {r : Request} {kind : ObjectKind} {since ready : Nat}
    (fetching : ⟨r, .fetching kind since ready⟩ ∈ s.passes) (e : Error) :
    Orderly c (s.leaveResult c r (.error e)) := by
  refine h.leaveResult (fun hpod => .of_changed (h.changed_of_fetching fetching hpod) (by simp)) ?_
  intro hpod hdeleted
  rw [h.changed_of_fetching fetching hpod] at hdeleted
  cases hdeleted

theorem turn {j : List Entry} {out : State × List Entry} (h : Orderly c s) (booked : Booked s j)
    (numbered : Numbered s j) (turn : Turn c s out) : Orderly c out.1 := by
  have hkeep {s' : State} (hcluster : s'.cluster = s.cluster) (hpasses : s'.passes = s.passes)
      (hcompletions : ∀ e ∈ s'.completions, e ∈ s.completions) (hvitals : s'.vitals = s.vitals) :
      Orderly c s' :=
    h.frame (hcluster ▸ h.keyed) (fun p hp _ _ => hpasses ▸ hp) hcompletions hvitals
  cases turn with
  | aside => exact hkeep rfl rfl (fun _ he => he) rfl
  | change change =>
    exact h.frame (h.keyed.change change) (fun _ hp _ _ => hp) (fun _ he => he) rfl
  | @receive n rest running first =>
    have hs : Orderly c { s with queue := rest, ledger := (s.ledger.schedule n).1 } :=
      hkeep rfl rfl (fun _ he => he) rfl
    exact hs.obeyAll _
  | @complete e rest running first =>
    have hrest (x : Completion) (hx : x ∈ rest) : x ∈ s.completions := by
      rw [first]
      exact List.mem_cons_of_mem _ hx
    simp only [State.complete]
    split
    · -- the controller breaks off, and no pass is left
      exact h.frame h.keyed (fun p hp => absurd hp List.not_mem_nil) hrest rfl
    · rename_i l orders events hc
      have hs : Orderly c { s with completions := rest, ledger := l } := hkeep rfl rfl hrest rfl
      exact hs.obeyAll _
  | @hear ring rest running first =>
    simp only [hear]
    split
    · have hs : Orderly c { s with
          rings := rest
          ledger := (s.ledger.fire ring.generation ring.notification).1 } :=
        hkeep rfl rfl (fun _ he => he) rfl
      exact hs.obeyAll _
    · exact hkeep rfl rfl (fun _ he => he) rfl
  | ring => exact hkeep rfl rfl (fun _ he => he) rfl
  | reap => exact hkeep rfl rfl (fun _ he => he) rfl
  | begin granted => exact h.begin booked numbered granted
  | resume allowed fetching elapsed => exact h.resume booked allowed fetching
  | expire fetching late => exact h.expire fetching _
  | drop serial => exact h.endPass serial
  | close => exact hkeep rfl rfl (fun _ he => he) rfl
  | stopTimer => exact hkeep rfl rfl (fun _ he => he) rfl
  | finish => exact hkeep rfl rfl (fun _ he => he) rfl

end Orderly

/-! ## Offers -/

/-- Entries offer containers only for passes for changes of their pods. -/
def OffersOf (s : State) (es : List Entry) : Prop :=
  ∀ pod status, .offer pod status ∈ effects es →
    ∃ r ∈ requests s.passes, r.key = pod ∧ r.kind = .changed

theorem OffersOf.of_quiet {s : State} {es : List Entry} (quiet : effects es = []) :
    OffersOf s es := by
  intro pod status hmem
  rw [quiet] at hmem
  exact absurd hmem List.not_mem_nil

/-- A pass that starts offers nothing yet. -/
theorem not_offer_begin {c : Controller} {s : State} {r : Request} {pod : ObjectKey}
    {status : ContainerStatus} : .offer pod status ∉ effects (s.begin c r).2 := by
  unfold State.begin
  split
  · exact List.not_mem_nil
  · dsimp only
    split
    · intro hmem
      have hmem : .offer pod status ∈ effects (s.carryOut c r (Dispatcher.deletionPlan r.key)).2 :=
        hmem
      rw [effects_carryOut] at hmem
      simp [Dispatcher.deletionPlan] at hmem
    · exact List.not_mem_nil

/-- Only passes that have their answers offer anything. -/
theorem Orderly.offersOf {c : Controller} {s : State} {out : State × List Entry}
    (h : Orderly c s) (turn : Turn c s out) : OffersOf s out.2 := by
  cases turn with
  | @receive n rest running first => exact .of_quiet (quiet_schedule (c := c) _ n).2
  | @complete e rest running first =>
    exact .of_quiet (quiet_complete (c := c) _ e.request e.result).2
  | @hear ring rest running first => exact .of_quiet (quiet_hear (c := c) _ ring).2
  | begin granted => exact fun pod status hmem => absurd hmem not_offer_begin
  | @resume r kind since ready allowed fetching elapsed =>
    intro pod status hoffer
    rw [effects_resume] at hoffer
    have hneed := h.needed _ fetching kind ⟨since, ready, rfl⟩
    obtain ⟨rfl, hchanged⟩ := (h.plan hneed (lateError c r) allowed rfl).1 pod status hoffer
    exact ⟨r, List.mem_map_of_mem fetching, rfl, hchanged⟩
  | _ => exact .of_quiet rfl

/-! ## Runs -/

/-- What is kept of lanes, serials and passes. -/
structure Regular (c : Controller) (s : State) (j : List Entry) : Prop where
  booked : Booked s j
  numbered : Numbered s j
  orderly : Orderly c s

theorem regular_initial (c : Controller) (clock : Instant) : Regular c (.initial clock) [] where
  booked := booked_initial clock
  numbered := numbered_initial clock
  orderly := orderly_initial c clock

theorem Regular.step {c : Controller} {s : State} {j : List Entry} (h : Regular c s j) (e : Event) :
    Regular c (c.step s e).1 (j ++ (c.step s e).2) where
  booked := h.booked.keeps c e
  numbered := h.numbered.step c e
  orderly := h.orderly.turn h.booked h.numbered (turn_step c s e)

theorem Regular.offers {c : Controller} {s : State} {j : List Entry} (h : Regular c s j)
    (e : Event) : OffersOf s (c.step s e).2 :=
  h.orderly.offersOf (turn_step c s e)

theorem regular_run (c : Controller) (clock : Instant) (events : List Event) :
    Regular c (c.run (.initial clock) events).1 (c.run (.initial clock) events).2 :=
  run_of_nil c (Regular c) (fun _ _ e h => h.step e) _ events (regular_initial c clock)

end Controller

end ClusterVitals
