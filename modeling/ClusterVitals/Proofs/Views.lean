import ClusterVitals.Proofs.PodPasses

/-!
# What is known and published of one object

The vitals hold for a pod the counters of its containers, and for a secret the gauges under its
labels. Effects about other objects leave both alone. The effects of a pass that found its object
and went well bring them up to date: `Vitals.Reflects` says what they come to.
-/

namespace ClusterVitals

/-- The object that an effect is about. -/
def Effect.subject? : Effect → Option ObjectKey
  | .offer pod _ => some pod
  | .evict pod => some pod
  | .assess secret _ _ _ => some secret
  | .clear secret => some secret
  | .report _ => none

/-! ## Labels of certificates -/

/-- The families of gauges of certificates. -/
def certificateFamilies : List String :=
  [Metrics.expirationFamily.name, Metrics.daysLeftFamily.name]

theorem contains_secretLabels {labels : LabelSet} {secret : ObjectKey} :
    labels.contains (secretLabels secret) ↔
      labels.get? "namespace" = some secret.ns ∧ labels.get? "secret_name" = some secret.name := by
  rw [LabelSet.contains, show (secretLabels secret).pairs =
    [("namespace", secret.ns), ("secret_name", secret.name)] from rfl]
  simp

theorem get?_certificateLabels (secret : ObjectKey) (dataKey : String) :
    (certificateLabels secret dataKey).get? "namespace" = some secret.ns ∧
      (certificateLabels secret dataKey).get? "secret_name" = some secret.name ∧
      (certificateLabels secret dataKey).get? "cert_type" = some dataKey := by
  simp [certificateLabels, LabelSet.ofList, LabelSet.get?_insert]

theorem certificateLabels_injective {secret : ObjectKey} {dataKey other : String}
    (h : certificateLabels secret dataKey = certificateLabels secret other) : dataKey = other := by
  have hfound := (get?_certificateLabels secret dataKey).2.2
  rw [h, (get?_certificateLabels secret other).2.2] at hfound
  exact (Option.some.inj hfound).symm

/-- The gauges of a certificate are among those of its secret, and of no other one. -/
theorem contains_certificateLabels {secret other : ObjectKey} {dataKey : String} :
    (certificateLabels other dataKey).contains (secretLabels secret) ↔ other = secret := by
  obtain ⟨hns, hname, -⟩ := get?_certificateLabels other dataKey
  rw [contains_secretLabels, hns, hname]
  constructor
  · rintro ⟨hns, hname⟩
    cases other
    cases secret
    simp_all
  · rintro rfl
    exact ⟨rfl, rfl⟩

/-- Labels name one secret. -/
theorem eq_of_contains_secretLabels {labels : LabelSet} {secret other : ObjectKey}
    (h : labels.contains (secretLabels secret)) (h' : labels.contains (secretLabels other)) :
    secret = other := by
  obtain ⟨hns, hname⟩ := contains_secretLabels.1 h
  obtain ⟨hns', hname'⟩ := contains_secretLabels.1 h'
  rw [hns] at hns'
  rw [hname] at hname'
  cases secret
  cases other
  simp_all

theorem terminationFamily_notMem : Metrics.terminationFamily.name ∉ certificateFamilies := by
  decide

namespace Vitals

/-! ## Effects about other objects -/

/-- Two vitals hold the same of an object. -/
structure AgreeOn (key : ObjectKey) (v w : Vitals) : Prop where
  counters : ∀ identity : ContainerIdentity, identity.pod = key →
    w.tracker.prior? identity = v.tracker.prior? identity
  gauges : ∀ metric ∈ certificateFamilies, ∀ labels : LabelSet,
    labels.contains (secretLabels key) →
      w.registry.get? metric labels = v.registry.get? metric labels

section

variable {key : ObjectKey} {u v w : Vitals}

theorem AgreeOn.refl (v : Vitals) : AgreeOn key v v := ⟨fun _ _ => rfl, fun _ _ _ _ => rfl⟩

theorem AgreeOn.trans (h : AgreeOn key u v) (h' : AgreeOn key v w) : AgreeOn key u w where
  counters identity hpod := (h'.counters identity hpod).trans (h.counters identity hpod)
  gauges metric hmetric labels hlabels :=
    (h'.gauges metric hmetric labels hlabels).trans (h.gauges metric hmetric labels hlabels)

/-- The registry of certificates is left alone by what is offered to the tracker. -/
theorem get?_offer (v : Vitals) (pod : ObjectKey) (status : ContainerStatus) {metric : String}
    (hmetric : metric ∈ certificateFamilies) (labels : LabelSet) :
    (v.offer pod status).1.registry.get? metric labels = v.registry.get? metric labels := by
  have hne : Metrics.terminationFamily.name ≠ metric := by
    rintro rfl
    exact terminationFamily_notMem hmetric
  unfold offer
  rcases v.tracker.observeStatus pod status with ⟨tracker, _ | r⟩
  · rfl
  · show (v.registry.set _ _ _).get? metric labels = _
    rw [Registry.get?_set, if_neg fun h => hne h.1]

/-- Publishing the end of a certificate sets its gauges, and leaves all others alone. -/
theorem get?_publish (v : Vitals) (secret : ObjectKey) (dataKey : String) (expires : Instant)
    (daysLeft : Binary64) {metric : String} {labels : LabelSet}
    (h : labels ≠ certificateLabels secret dataKey) :
    (v.publish secret dataKey expires daysLeft).registry.get? metric labels =
      v.registry.get? metric labels := by
  rw [publish, Registry.get?_set, if_neg fun h' => h h'.2.symm, Registry.get?_set,
    if_neg fun h' => h h'.2.symm]

/-- Reading a certificate leaves the gauges under other labels alone. -/
theorem get?_assess (v : Vitals) (secret : ObjectKey) (dataKey : String) (material : List UInt8)
    (now : Instant) {metric : String} {labels : LabelSet}
    (h : labels ≠ certificateLabels secret dataKey) :
    (v.assess secret dataKey material now).1.registry.get? metric labels =
      v.registry.get? metric labels := by
  unfold assess
  split
  · exact get?_publish v secret dataKey _ _ h
  · rfl

/-- Removing the gauges of a secret takes those under its labels from both families. -/
theorem get?_clear (v : Vitals) (secret : ObjectKey) {metric : String}
    (hmetric : metric ∈ certificateFamilies) (labels : LabelSet) :
    (v.clear secret).1.registry.get? metric labels =
      if labels.contains (secretLabels secret) then none else v.registry.get? metric labels := by
  show ((v.registry.deleteMatching _ _).1.deleteMatching _ _).1.get? metric labels = _
  rw [Registry.get?_deleteMatching, Registry.get?_deleteMatching]
  rcases List.mem_pair.1 hmetric with rfl | rfl <;> split <;> simp_all

/-- An effect about another object leaves what is held of an object. -/
theorem agreeOn_apply (v : Vitals) {effect : Effect} (other : effect.subject? ≠ some key) :
    AgreeOn key v (v.apply effect).1 := by
  cases effect with
  | offer pod status =>
    have hpod : pod ≠ key := fun h => other (congrArg some h)
    refine ⟨?_, fun metric hmetric labels _ => v.get?_offer pod status hmetric labels⟩
    intro identity hidentity
    show (v.offer pod status).1.tracker.prior? identity = _
    rw [tracker_offer]
    show (v.tracker.observe ⟨pod, status.name⟩ _ _).1.prior? identity = _
    rw [Tracker.prior?_observe, if_neg]
    rintro ⟨-, -, rfl⟩
    exact hpod hidentity
  | evict pod =>
    have hpod : pod ≠ key := fun h => other (congrArg some h)
    refine ⟨?_, fun _ _ _ _ => rfl⟩
    intro identity hidentity
    show (v.tracker.evict pod).1.prior? identity = _
    rw [Tracker.prior?_evict, if_neg]
    simpa [ContainerIdentity.belongsTo, hidentity] using hpod.symm
  | assess secret dataKey material now =>
    have hsecret : secret ≠ key := fun h => other (congrArg some h)
    constructor
    case counters =>
      intro identity _
      show (v.assess secret dataKey material now).1.tracker.prior? identity = _
      rw [tracker_assess]
    case gauges =>
      intro metric _ labels hlabels
      refine v.get?_assess secret dataKey material now ?_
      rintro rfl
      exact hsecret (contains_certificateLabels.1 hlabels)
  | clear secret =>
    have hsecret : secret ≠ key := fun h => other (congrArg some h)
    refine ⟨fun _ _ => rfl, ?_⟩
    intro metric hmetric labels hlabels
    show (v.clear secret).1.registry.get? metric labels = _
    rw [get?_clear v secret hmetric, if_neg]
    exact fun hcleared => hsecret (eq_of_contains_secretLabels hcleared hlabels)
  | report event => exact .refl v

theorem agreeOn_applyAll (v : Vitals) {effects : List Effect}
    (others : ∀ effect ∈ effects, effect.subject? ≠ some key) :
    AgreeOn key v (v.applyAll effects).1 := by
  induction effects generalizing v with
  | nil => exact .refl v
  | cons effect rest ih =>
    have hfirst := v.agreeOn_apply (others effect List.mem_cons_self)
    exact hfirst.trans (ih _ fun e he => others e (List.mem_cons_of_mem _ he))

end

/-! ## Up to date -/

/-- The restarts of the containers of a pod are known to the tracker, as far as their last exits
are. -/
def Counted (v : Vitals) (pod : ObjectKey) (containers : List ContainerStatus) : Prop :=
  ∀ status ∈ containers, status.lastTermination.isSome → 0 < status.restarts →
    ∃ n, v.tracker.prior? ⟨pod, status.name⟩ = some n ∧ status.restarts ≤ n

/-- The gauges of a certificate show its end, and the days that are left at an instant. -/
def Shows (v : Vitals) (secret : ObjectKey) (reading : Instant) (dataKey : String)
    (expires : Instant) : Prop :=
  v.registry.get? Metrics.expirationFamily.name (certificateLabels secret dataKey) =
      some (.ofInt expires.unixSeconds) ∧
    v.registry.get? Metrics.daysLeftFamily.name (certificateLabels secret dataKey) =
      some (expires.daysUntil reading)

/-- Each certificate that can be read is shown. -/
def ShowsAll (v : Vitals) (secret : ObjectKey) (reading : Instant)
    (entries : List (String × List UInt8)) : Prop :=
  ∀ dataKey material expires, (dataKey, material) ∈ entries → dataKey ∈ certificateKeys →
    Certificate.evaluate material = .ok expires → v.Shows secret reading dataKey expires

/-- There are no gauges of a secret. -/
def ShowsNone (v : Vitals) (secret : ObjectKey) : Prop :=
  ∀ metric ∈ certificateFamilies, ∀ labels : LabelSet, labels.contains (secretLabels secret) →
    v.registry.get? metric labels = none

/-- What is held of an object is up to date with an answer to a fetch of it. -/
def Reflects (v : Vitals) (key : ObjectKey) (reading : Instant) : Answer → Prop
  | .pod (.ok pod) => v.Counted key pod.containers
  | .pod (.error _) => True
  | .secret (.ok secret) => v.ShowsAll key reading secret.entries
  | .secret (.error _) => v.ShowsNone key

section

variable {key : ObjectKey} {v w : Vitals}

theorem Shows.congr {reading : Instant} {dataKey : String} {expires : Instant}
    (h : v.Shows key reading dataKey expires) (agree : AgreeOn key v w) :
    w.Shows key reading dataKey expires := by
  have hlabels : (certificateLabels key dataKey).contains (secretLabels key) :=
    contains_certificateLabels.2 rfl
  refine ⟨(agree.gauges _ ?_ _ hlabels).trans h.1, (agree.gauges _ ?_ _ hlabels).trans h.2⟩ <;>
    simp [certificateFamilies]

/-- Being up to date depends on what is held of the object only. -/
theorem Reflects.congr {reading : Instant} {answer : Answer} (h : v.Reflects key reading answer)
    (agree : AgreeOn key v w) : w.Reflects key reading answer := by
  rcases answer with (e | pod) | (e | secret)
  · trivial
  · intro status hstatus hexit hpositive
    obtain ⟨n, hn, hle⟩ := h status hstatus hexit hpositive
    exact ⟨n, (agree.counters _ rfl).trans hn, hle⟩
  · exact fun metric hmetric labels hlabels =>
      (agree.gauges metric hmetric labels hlabels).trans (h metric hmetric labels hlabels)
  · exact fun dataKey material expires hentry hkey hread =>
      (h dataKey material expires hentry hkey hread).congr agree

end

/-! ## What the effects of a pass come to -/

/-- A container that is offered is counted, and those that were counted stay so. -/
theorem Counted.offer {v : Vitals} {pod : ObjectKey} {seen : List ContainerStatus}
    (h : v.Counted pod seen) (status : ContainerStatus) :
    (v.offer pod status).1.Counted pod (seen ++ [status]) := by
  intro other hother hexit hpositive
  rw [tracker_offer]
  show ∃ n, (v.tracker.observe ⟨pod, status.name⟩ status.restarts
    status.lastTermination.isSome).1.prior? ⟨pod, other.name⟩ = some n ∧ _
  rw [Tracker.prior?_observe]
  rcases List.mem_append.1 hother with hother | hother
  · obtain ⟨n, hn, hle⟩ := h other hother hexit hpositive
    split
    · -- a counter that takes the place of another one is higher
      rename_i hnew
      refine ⟨status.restarts, rfl, ?_⟩
      rw [hnew.2.2, hn] at hnew
      exact Nat.le_of_lt (Nat.lt_of_le_of_lt hle hnew.2.1)
    · exact ⟨n, hn, hle⟩
  · obtain rfl := List.mem_singleton.1 hother
    split
    · exact ⟨_, rfl, Nat.le_refl _⟩
    · -- what is not new is not above the counter that is kept
      rename_i hold
      have hle : other.restarts ≤ (v.tracker.prior? ⟨pod, other.name⟩).getD 0 :=
        Nat.not_lt.1 fun hlt => hold ⟨hexit, hlt, rfl⟩
      rcases hprior : v.tracker.prior? ⟨pod, other.name⟩ with _ | n
      · rw [hprior, Option.getD_none] at hle
        omega
      · rw [hprior, Option.getD_some] at hle
        exact ⟨n, rfl, hle⟩

/-- Containers that are offered one after the other are all counted. -/
theorem Counted.offers {v : Vitals} {pod : ObjectKey} {seen : List ContainerStatus}
    (h : v.Counted pod seen) (containers : List ContainerStatus) :
    (v.applyAll (containers.map (.offer pod))).1.Counted pod (seen ++ containers) := by
  induction containers generalizing v seen with
  | nil => rwa [List.append_nil]
  | cons status rest ih =>
    have hrest := ih (h.offer status)
    rwa [List.append_assoc] at hrest

/-- A certificate that is read is shown. -/
theorem shows_assess (v : Vitals) (secret : ObjectKey) {dataKey : String} {material : List UInt8}
    {expires : Instant} (now : Instant) (read : Certificate.evaluate material = .ok expires) :
    (v.assess secret dataKey material now).1.Shows secret now dataKey expires := by
  have hne : Metrics.daysLeftFamily.name ≠ Metrics.expirationFamily.name := by decide
  rw [assess, read]
  constructor
  · show ((v.registry.set _ _ _).set _ _ _).get? _ _ = _
    rw [Registry.get?_set, if_neg fun h => hne h.1, Registry.get?_set, if_pos ⟨rfl, rfl⟩]
  · show ((v.registry.set _ _ _).set _ _ _).get? _ _ = _
    rw [Registry.get?_set, if_pos ⟨rfl, rfl⟩]

/-- The slots of a secret. -/
def slots (key : ObjectKey) (now : Instant) (entries : List (String × List UInt8)) : List Effect :=
  (entries.map (slotStep key now)).map Step.effect

/-- Slots of other data keys leave the gauges of a certificate alone. -/
theorem get?_slots (v : Vitals) {key : ObjectKey} {now : Instant} {dataKey : String}
    {entries : List (String × List UInt8)} (others : ∀ entry ∈ entries, entry.1 ≠ dataKey)
    (metric : String) :
    (v.applyAll (slots key now entries)).1.registry.get? metric (certificateLabels key dataKey) =
      v.registry.get? metric (certificateLabels key dataKey) := by
  induction entries generalizing v with
  | nil => rfl
  | cons entry rest ih =>
    refine (ih _ fun e he => others e (List.mem_cons_of_mem _ he)).trans ?_
    have hentry := others entry List.mem_cons_self
    show (v.apply (slotStep key now entry).effect).1.registry.get? _ _ = _
    by_cases hkey : entry.1 ∈ certificateKeys
    · rw [slotStep, if_pos hkey]
      refine v.get?_assess key entry.1 entry.2 now ?_
      exact fun h => hentry (certificateLabels_injective h).symm
    · rw [slotStep, if_neg hkey]
      rfl

/-- The slots of a secret show all of its certificates. -/
theorem showsAll_slots (v : Vitals) (key : ObjectKey) (now : Instant)
    {entries : List (String × List UInt8)} (distinct : entries.Pairwise (·.1 ≠ ·.1)) :
    (v.applyAll (slots key now entries)).1.ShowsAll key now entries := by
  induction entries generalizing v with
  | nil => exact fun _ _ _ hentry => absurd hentry List.not_mem_nil
  | cons entry rest ih =>
    obtain ⟨hentry, hrest⟩ := List.pairwise_cons.1 distinct
    intro dataKey material expires hmem hkey hread
    rcases List.mem_cons.1 hmem with rfl | hmem
    · -- the slots that follow are of other data keys
      have hfirst : (v.apply (slotStep key now (dataKey, material)).effect).1.Shows key now dataKey
          expires := by
        rw [slotStep, if_pos hkey]
        exact v.shows_assess key now hread
      have hothers (e : String × List UInt8) (he : e ∈ rest) : e.1 ≠ dataKey := (hentry e he).symm
      exact ⟨(get?_slots _ hothers _).trans hfirst.1, (get?_slots _ hothers _).trans hfirst.2⟩
    · exact ih _ hrest dataKey material expires hmem hkey hread

end Vitals

/-- The data entries of a secret are in the order of the data keys. -/
theorem Secret.ordered_entries (secret : Secret) : secret.entries.Pairwise (·.1 < ·.1) := by
  have hordered := Std.ExtTreeMap.ordered_keys_toList (t := secret.data)
  exact hordered.imp fun h => compareOfLessAndEq_eq_lt.1 h

theorem Secret.distinct_entries (secret : Secret) : secret.entries.Pairwise (·.1 ≠ ·.1) := by
  refine secret.ordered_entries.imp ?_
  intro a b hlt heq
  rw [heq] at hlt
  exact String.lt_irrefl b.1 hlt

/-! ## Plans

A pass works on its own object only, and if it goes well, what is held of the object is up to date
with the answer to its fetch. -/

/-- The effects of a plan that was not cut short are those of all of its steps. -/
theorem beforeDeadline_of_uncut {allowed : Option Nat} {steps : List Step} :
    (beforeDeadline allowed steps).2 = false →
      (beforeDeadline allowed steps).1 = steps.map Step.effect := by
  induction steps generalizing allowed with
  | nil => exact fun _ => rfl
  | cons step rest ih =>
    unfold beforeDeadline
    split
    · split
      · exact fun h => by cases h
      · exact fun h => congrArg (step.effect :: ·) (ih h)
      · exact fun h => congrArg (step.effect :: ·) (ih h)
    · exact fun h => congrArg (step.effect :: ·) (ih h)

/-- A pass that found its pod and went well has counted the restarts of the containers. -/
theorem reflects_podPlan (v : Vitals) {key : ObjectKey} {late : Error} {allowed : Option Nat}
    {found : Except Error Pod} {outcome : Outcome} (now : Instant)
    (keyed : ∀ pod, found = .ok pod → pod.key = key)
    (h : (podPlan key late allowed found).result = .ok outcome) :
    (v.applyAll (podPlan key late allowed found).effects).1.Reflects key now (.pod found) := by
  rcases found with e | pod
  · trivial
  · obtain rfl := keyed pod rfl
    have huncut : (beforeDeadline allowed (podSteps pod)).2 = false := by
      rcases hcut : (beforeDeadline allowed (podSteps pod)).2
      · rfl
      · simp [podPlan, hcut] at h
    have heffects : (podPlan pod.key late allowed (.ok pod)).effects =
        pod.containers.map (.offer pod.key) := by
      show (beforeDeadline allowed (podSteps pod)).1 = _
      rw [beforeDeadline_of_uncut huncut, podSteps, List.map_map]
      rfl
    rw [heffects]
    have hnone : v.Counted pod.key [] := fun _ hstatus => absurd hstatus List.not_mem_nil
    exact hnone.offers pod.containers

/-- A pass that went well shows the certificates of the secret that it found, or has removed the
gauges if there is none. -/
theorem reflects_certificatePlan (v : Vitals) {key : ObjectKey} {interval : Duration}
    {now : Instant} {late : Error} {allowed : Option Nat} {found : Except Error Secret}
    {outcome : Outcome}
    (h : (certificatePlan key interval now late allowed found).result = .ok outcome) :
    (v.applyAll (certificatePlan key interval now late allowed found).effects).1.Reflects key now
      (.secret found) := by
  rcases found with e | secret
  · -- only for a secret that does not exist it goes well
    by_cases hgone : e.isNotFound
    · rw [certificatePlan, if_pos hgone]
      intro metric hmetric labels hlabels
      show (v.clear key).1.registry.get? metric labels = none
      rw [v.get?_clear key hmetric, if_pos hlabels]
    · rw [certificatePlan, if_neg hgone] at h
      cases h
  · have huncut : (beforeDeadline allowed (secretSteps key now secret)).2 = false := by
      rcases hcut : (beforeDeadline allowed (secretSteps key now secret)).2
      · rfl
      · simp [certificatePlan, hcut] at h
    have heffects : (certificatePlan key interval now late allowed (.ok secret)).effects =
        Vitals.slots key now secret.entries := by
      simp only [certificatePlan, huncut]
      exact beforeDeadline_of_uncut huncut
    rw [heffects]
    exact v.showsAll_slots key now secret.distinct_entries

theorem subject_podPlan {key : ObjectKey} {late : Error} {allowed : Option Nat}
    {found : Except Error Pod} (keyed : ∀ pod, found = .ok pod → pod.key = key) {effect : Effect}
    (h : effect ∈ (podPlan key late allowed found).effects) :
    effect.subject? = none ∨ effect.subject? = some key := by
  rcases found with e | pod
  · simp only [podPlan] at h
    split at h
    · exact absurd h List.not_mem_nil
    · rw [List.mem_singleton.1 h]
      exact .inl rfl
  · -- before the deadline or not, the steps are those of the pod that was found
    have hmem := (beforeDeadline_isPrefixOf allowed (podSteps pod)).subset h
    obtain ⟨step, hstep, rfl⟩ := List.mem_map.1 hmem
    obtain ⟨container, -, rfl⟩ := List.mem_map.1 hstep
    exact .inr (congrArg some (keyed pod rfl))

theorem subject_certificatePlan {key : ObjectKey} {interval : Duration} {now : Instant}
    {late : Error} {allowed : Option Nat} {found : Except Error Secret} {effect : Effect}
    (h : effect ∈ (certificatePlan key interval now late allowed found).effects) :
    effect.subject? = none ∨ effect.subject? = some key := by
  rcases found with e | secret
  · simp only [certificatePlan] at h
    split at h
    · rw [List.mem_singleton.1 h]
      exact .inr rfl
    · exact absurd h List.not_mem_nil
  · have hmem : effect ∈ (beforeDeadline allowed (secretSteps key now secret)).1 ∨
        effect = .report (.deadlineReached key) := by
      simp only [certificatePlan] at h
      split at h
      · simpa using h
      · exact .inl h
    rcases hmem with hmem | rfl
    · have hmem := (beforeDeadline_isPrefixOf allowed (secretSteps key now secret)).subset hmem
      obtain ⟨step, hstep, rfl⟩ := List.mem_map.1 hmem
      obtain ⟨entry, -, rfl⟩ := List.mem_map.1 hstep
      unfold slotStep
      split
      · exact .inr rfl
      · exact .inl rfl
    · exact .inl rfl

end ClusterVitals
