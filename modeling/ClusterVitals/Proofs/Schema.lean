import ClusterVitals.Proofs.Interleaving

/-!
# The schema of what is published

The families are declared in one place, and their gauges are set and removed in others. Whatever
passes do, the families stay those that are declared, every gauge has the labels that its family
declares, the two gauges of a certificate are there together and are of the secret that is watched,
and every container with a counter has a gauge.

## Shape of the proofs

An effect sets gauges of restarts or of a certificate (`gauge_apply`), takes away no gauge of a
restart (`termination_apply`), and brings no counter without its gauge (`counter_apply`). Each keeps
the schema if certificates are read of the secret that is watched only, as passes do.
-/

namespace ClusterVitals

/-- The help text with which a family is declared. -/
def Metrics.declaredHelp? (metric : String) : Option String :=
  (families.find? (·.name = metric)).map FamilyDeclaration.help

/-- The names of the labels are exactly those that are declared. -/
def FamilyDeclaration.Names (d : FamilyDeclaration) (labels : LabelSet) : Prop :=
  (labels.pairs.map Prod.fst).Perm d.labels

/-- Certificates are read of one secret only, and under the data keys for them. -/
def Effect.ReadsOnly (subject : ObjectKey) : Effect → Prop
  | .assess secret dataKey _ _ => secret = subject ∧ dataKey ∈ certificateKeys
  | _ => True

/-- The gauges that an effect can set. -/
inductive Effect.Sets : Effect → String → LabelSet → Prop where
  | restart {pod : ObjectKey} {status : ContainerStatus} (r : Restart)
      (identity : r.identity = ⟨pod, status.name⟩) :
      Sets (.offer pod status) Metrics.terminationFamily.name r.labels
  | certificate {secret : ObjectKey} {dataKey : String} {material : List UInt8} {now : Instant}
      {metric : String} (family : metric ∈ certificateFamilies) :
      Sets (.assess secret dataKey material now) metric (certificateLabels secret dataKey)

/-- Declaring a family gives it its help text, and changes that of no other one. -/
theorem Registry.help?_declare (r : Registry) (metric help other : String) :
    (r.declare metric help).help? other = if metric = other then some help else r.help? other := by
  by_cases h : metric = other
  · simp [declare, help?, h]
  · simp [declare, help?, Std.ExtTreeMap.getElem?_insert, h]

/-- Setting a gauge of a family that is there keeps the families. -/
theorem Registry.help?_set_of_some {r : Registry} {metric : String} (h : (r.help? metric).isSome)
    (labels : LabelSet) (value : Binary64) (other : String) :
    (r.set metric labels value).help? other = r.help? other := by
  obtain ⟨help, hhelp⟩ := Option.isSome_iff_exists.1 h
  rw [help?_set]
  split
  · rename_i hother
    rw [← hother, hhelp]
    rfl
  · rfl

/-! ## Labels -/

theorem names_restartLabels (r : Restart) : Metrics.terminationFamily.Names r.labels := by
  have hnames : r.labels.pairs.map Prod.fst =
    ["container", "exit_code", "namespace", "pod", "reason"] := rfl
  rw [FamilyDeclaration.Names, hnames]
  decide

theorem get?_restartLabels (r : Restart) :
    r.labels.get? "namespace" = some r.identity.pod.ns ∧
      r.labels.get? "pod" = some r.identity.pod.name ∧
      r.labels.get? "container" = some r.identity.container := by
  simp [Restart.labels, LabelSet.ofList, LabelSet.get?_insert]

theorem names_certificateLabels (secret : ObjectKey) (dataKey : String) {d : FamilyDeclaration}
    (h : d.name ∈ certificateFamilies) (declared : d ∈ Metrics.families) :
    d.Names (certificateLabels secret dataKey) := by
  have hnames : (certificateLabels secret dataKey).pairs.map Prod.fst =
    ["cert_type", "namespace", "secret_name"] := rfl
  have hlabels : d.labels = ["namespace", "secret_name", "cert_type"] := by
    simp only [Metrics.families, List.mem_cons, List.not_mem_nil, or_false] at declared
    rcases declared with rfl | rfl | rfl
    · exact absurd h terminationFamily_notMem
    · rfl
    · rfl
  rw [FamilyDeclaration.Names, hnames, hlabels]
  decide

/-- The gauges of an effect have the labels that their family declares. -/
theorem Effect.Sets.names {e : Effect} {metric : String} {labels : LabelSet}
    (h : e.Sets metric labels) {d : FamilyDeclaration} (declared : d ∈ Metrics.families)
    (name : d.name = metric) : d.Names labels := by
  cases h with
  | restart r identity =>
    obtain rfl : d = Metrics.terminationFamily := by
      revert d
      decide
    exact names_restartLabels r
  | certificate family => exact names_certificateLabels _ _ (name ▸ family) declared

namespace Vitals

/-- What is published follows the schema. -/
structure Schema (subject : ObjectKey) (v : Vitals) : Prop where
  /-- The families are those that are declared, with the help texts that are declared. -/
  families : ∀ metric, v.registry.help? metric = Metrics.declaredHelp? metric
  /-- The gauges of a family have exactly the labels that it declares. -/
  labelled : ∀ d ∈ Metrics.families, ∀ labels, (v.registry.get? d.name labels).isSome →
    d.Names labels
  /-- The two gauges of a certificate are there together. -/
  paired : ∀ labels, (v.registry.get? Metrics.expirationFamily.name labels).isSome =
    (v.registry.get? Metrics.daysLeftFamily.name labels).isSome
  /-- They are of a certificate of the secret that is watched. -/
  watched : ∀ metric ∈ certificateFamilies, ∀ labels, (v.registry.get? metric labels).isSome →
    labels.get? "namespace" = some subject.ns ∧ labels.get? "secret_name" = some subject.name ∧
      ∃ dataKey ∈ certificateKeys, labels.get? "cert_type" = some dataKey
  /-- Each container with a counter has a gauge. -/
  tracked : ∀ identity n, v.tracker.prior? identity = some n → ∃ labels,
    (v.registry.get? Metrics.terminationFamily.name labels).isSome ∧
      labels.get? "namespace" = some identity.pod.ns ∧
      labels.get? "pod" = some identity.pod.name ∧
      labels.get? "container" = some identity.container

theorem schema_initial (subject : ObjectKey) : Schema subject .initial := by
  have hnone (metric : String) (labels : LabelSet) :
      ¬(Vitals.initial.registry.get? metric labels).isSome := by
    rw [get?_initial]
    exact Bool.false_ne_true
  constructor
  case families =>
    intro metric
    simp only [initial, Registry.standard, Metrics.families, List.foldl_cons, List.foldl_nil,
      Registry.help?_declare, Metrics.declaredHelp?]
    -- no two families have the same name, so the order of the declarations makes no difference
    by_cases hterm : Metrics.terminationFamily.name = metric
    · subst hterm
      rfl
    by_cases hexp : Metrics.expirationFamily.name = metric
    · subst hexp
      rfl
    by_cases hdays : Metrics.daysLeftFamily.name = metric
    · subst hdays
      rfl
    simp [hterm, hexp, hdays, Registry.help?, Registry.empty]
  case labelled => exact fun d _ labels h => absurd h (hnone d.name labels)
  case paired =>
    intro labels
    rw [get?_initial, get?_initial]
  case watched => exact fun metric _ labels h => absurd h (hnone metric labels)
  case tracked =>
    intro identity n h
    rw [show Vitals.initial.tracker = Tracker.empty from rfl, Tracker.prior?_empty] at h
    cases h

/-! ## What one effect changes -/

section

variable {v : Vitals} {e : Effect} {metric : String} {labels : LabelSet}

/-- What the offer of a container comes to: nothing, or a counter with its gauge. -/
theorem offer_cases (v : Vitals) (pod : ObjectKey) (status : ContainerStatus) :
    (v.offer pod status).1 = v ∨ ∃ (r : Restart) (tracker : Tracker),
      r.identity = ⟨pod, status.name⟩ ∧
      (v.offer pod status).1 =
        ⟨tracker, v.registry.set Metrics.terminationFamily.name r.labels r.value⟩ ∧
      ∀ identity, tracker.prior? identity =
        if r.identity = identity then some r.counter else v.tracker.prior? identity := by
  obtain ⟨tracker, answer⟩ : ∃ tracker, (v.tracker.observeStatus pod status).1 = tracker :=
    ⟨_, rfl⟩
  have hobserve : v.tracker.observe (Sighting.identity ⟨pod, status⟩) status.restarts
      status.lastTermination.isSome = (tracker, (v.tracker.observe ⟨pod, status.name⟩
        status.restarts status.lastTermination.isSome).2) := by
    rw [← answer]
    rfl
  unfold offer
  rcases hr : v.tracker.observeStatus pod status with ⟨tracker', _ | r⟩
  · have hold := not_new_of_observeStatus (congrArg Prod.snd hr)
    left
    rw [hr] at answer
    show Vitals.mk tracker' v.registry = v
    rw [show tracker' = tracker from answer, prior?_of_old (o := ⟨pod, status⟩) hobserve hold]
  · right
    obtain ⟨hnew, exit, -, rfl⟩ := observeStatus_eq_some_iff.1 (congrArg Prod.snd hr)
    refine ⟨_, tracker', rfl, rfl, ?_⟩
    rw [hr] at answer
    rw [show tracker' = tracker from answer]
    exact (prior?_of_new (o := ⟨pod, status⟩) hobserve hnew).2

/-- Reading a certificate sets its two gauges, or none. -/
theorem isSome_assess (v : Vitals) (secret : ObjectKey) (dataKey : String) (material : List UInt8)
    (now : Instant) :
    ((v.assess secret dataKey material now).1.registry.get? metric labels).isSome ↔
      (v.registry.get? metric labels).isSome ∨
        (Certificate.evaluate material).isOk ∧ metric ∈ certificateFamilies ∧
          labels = certificateLabels secret dataKey := by
  unfold assess
  rcases Certificate.evaluate material with _ | expires
  · simp [Except.isOk, Except.toBool]
  · show ((Registry.set _ _ _ _).get? _ _).isSome ↔ _
    rw [Registry.get?_set, Registry.get?_set, certificateFamilies, List.mem_pair]
    split
    · rename_i h
      exact iff_of_true rfl (.inr ⟨rfl, .inr h.1.symm, h.2.symm⟩)
    · rename_i hdays
      split
      · rename_i h
        exact iff_of_true rfl (.inr ⟨rfl, .inl h.1.symm, h.2.symm⟩)
      · rename_i hexp
        refine (or_iff_left ?_).symm
        rintro ⟨-, rfl | rfl, rfl⟩
        · exact hexp ⟨rfl, rfl⟩
        · exact hdays ⟨rfl, rfl⟩

/-- Removing the gauges of a secret removes them from both families, and no others. -/
theorem isSome_clear (v : Vitals) (secret : ObjectKey) :
    ((v.clear secret).1.registry.get? metric labels).isSome ↔
      (v.registry.get? metric labels).isSome ∧
        ¬(metric ∈ certificateFamilies ∧ labels.contains (secretLabels secret)) := by
  by_cases hmetric : metric ∈ certificateFamilies
  · rw [get?_clear v secret hmetric]
    split <;> simp_all
  · have hexp : Metrics.expirationFamily.name ≠ metric := by
      rintro rfl
      exact hmetric (by decide)
    have hdays : Metrics.daysLeftFamily.name ≠ metric := by
      rintro rfl
      exact hmetric (by decide)
    show (((v.registry.deleteMatching _ _).1.deleteMatching _ _).1.get? metric labels).isSome ↔ _
    rw [Registry.get?_deleteMatching, Registry.get?_deleteMatching, if_neg fun h => hdays h.1,
      if_neg fun h => hexp h.1]
    exact (and_iff_left fun h => hmetric h.1).symm

/-- A gauge was there before an effect, or was set by it. -/
theorem gauge_apply (h : ((v.apply e).1.registry.get? metric labels).isSome) :
    (v.registry.get? metric labels).isSome ∨ e.Sets metric labels := by
  cases e with
  | offer pod status =>
    rcases v.offer_cases pod status with hnone | ⟨r, tracker, hidentity, hset, -⟩
    · rw [apply, hnone] at h
      exact .inl h
    · rw [apply, hset, Registry.get?_set] at h
      split at h
      · rename_i hthis
        obtain ⟨rfl, rfl⟩ := hthis
        exact .inr (.restart r hidentity)
      · exact .inl h
  | evict pod => exact .inl h
  | assess secret dataKey material now =>
    rcases (v.isSome_assess secret dataKey material now).1 h with hbefore | ⟨-, hfamily, rfl⟩
    · exact .inl hbefore
    · exact .inr (.certificate hfamily)
  | clear secret => exact .inl ((v.isSome_clear secret).1 h).1
  | report event => exact .inl h

/-- No effect takes away the gauge of a restart. -/
theorem termination_apply (e : Effect)
    (h : (v.registry.get? Metrics.terminationFamily.name labels).isSome) :
    ((v.apply e).1.registry.get? Metrics.terminationFamily.name labels).isSome := by
  cases e with
  | offer pod status =>
    rcases v.offer_cases pod status with hnone | ⟨r, tracker, -, hset, -⟩
    · rwa [apply, hnone]
    · rw [apply, hset, Registry.get?_set]
      split
      · rfl
      · exact h
  | evict pod => exact h
  | assess secret dataKey material now =>
    exact (v.isSome_assess secret dataKey material now).2 (.inl h)
  | clear secret =>
    exact (v.isSome_clear secret).2 ⟨h, fun hcleared => terminationFamily_notMem hcleared.1⟩
  | report event => exact h

/-- A counter was there before an effect, or comes with its gauge. -/
theorem counter_apply {identity : ContainerIdentity} {n : Nat}
    (h : (v.apply e).1.tracker.prior? identity = some n) :
    v.tracker.prior? identity = some n ∨ ∃ r : Restart, r.identity = identity ∧
      ((v.apply e).1.registry.get? Metrics.terminationFamily.name r.labels).isSome := by
  cases e with
  | offer pod status =>
    rcases v.offer_cases pod status with hnone | ⟨r, tracker, -, hset, hprior⟩
    · rw [apply, hnone] at h
      exact .inl h
    · rw [apply, hset, hprior] at h
      split at h
      · rename_i hthis
        refine .inr ⟨r, hthis, ?_⟩
        rw [apply, hset, Registry.get?_set, if_pos ⟨rfl, rfl⟩]
        rfl
      · exact .inl h
  | evict pod =>
    have h : (v.tracker.evict pod).1.prior? identity = some n := h
    rw [Tracker.prior?_evict] at h
    split at h
    · cases h
    · exact .inl h
  | assess secret dataKey material now =>
    have h : (v.assess secret dataKey material now).1.tracker.prior? identity = some n := h
    rw [tracker_assess] at h
    exact .inl h
  | clear secret => exact .inl h
  | report event => exact .inl h

/-- No effect brings a family or takes one away, as long as those that are declared are there. -/
theorem help?_apply (e : Effect) (there : ∀ d ∈ Metrics.families, (v.registry.help? d.name).isSome)
    (metric : String) : (v.apply e).1.registry.help? metric = v.registry.help? metric := by
  have hdeclared : Metrics.families = [Metrics.terminationFamily, Metrics.expirationFamily,
    Metrics.daysLeftFamily] := rfl
  cases e with
  | offer pod status =>
    rcases v.offer_cases pod status with hnone | ⟨r, tracker, -, hset, -⟩
    · rw [apply, hnone]
    · rw [apply, hset]
      exact Registry.help?_set_of_some (there Metrics.terminationFamily (by simp [hdeclared])) _ _ _
  | evict pod => rfl
  | assess secret dataKey material now =>
    simp only [apply, assess]
    split
    · have hexp := Registry.help?_set_of_some (there Metrics.expirationFamily (by simp [hdeclared]))
      have hdays := there Metrics.daysLeftFamily (by simp [hdeclared])
      show ((v.registry.set _ _ _).set _ _ _).help? metric = _
      rw [Registry.help?_set_of_some (by rwa [hexp]), hexp]
    · rfl
  | clear secret =>
    show ((v.registry.deleteMatching _ _).1.deleteMatching _ _).1.help? metric = _
    rw [Registry.help?_deleteMatching, Registry.help?_deleteMatching]
  | report event => rfl

/-- An effect sets or removes the two gauges of a certificate together. -/
theorem paired_apply (e : Effect)
    (paired : ∀ labels, (v.registry.get? Metrics.expirationFamily.name labels).isSome =
      (v.registry.get? Metrics.daysLeftFamily.name labels).isSome) (labels : LabelSet) :
    ((v.apply e).1.registry.get? Metrics.expirationFamily.name labels).isSome =
      ((v.apply e).1.registry.get? Metrics.daysLeftFamily.name labels).isSome := by
  have hexp : Metrics.expirationFamily.name ∈ certificateFamilies := by decide
  have hdays : Metrics.daysLeftFamily.name ∈ certificateFamilies := by decide
  cases e with
  | offer pod status =>
    simp only [apply]
    rw [get?_offer v pod status hexp, get?_offer v pod status hdays]
    exact paired labels
  | evict pod => exact paired labels
  | assess secret dataKey material now =>
    rw [Bool.eq_iff_iff]
    simp only [apply]
    rw [isSome_assess, isSome_assess, paired]
    simp only [hexp, hdays]
  | clear secret =>
    rw [Bool.eq_iff_iff]
    simp only [apply]
    rw [isSome_clear, isSome_clear, paired]
    simp only [hexp, hdays]
  | report event => exact paired labels

end

/-! ## What effects keep -/

namespace Schema

variable {subject : ObjectKey} {v : Vitals}

theorem apply (h : v.Schema subject) {e : Effect} (reads : e.ReadsOnly subject) :
    (v.apply e).1.Schema subject where
  families metric := by
    rw [help?_apply e, h.families]
    intro d hd
    rw [h.families]
    revert d
    decide
  labelled d hd labels hset := by
    rcases gauge_apply hset with hbefore | hsets
    · exact h.labelled d hd labels hbefore
    · exact hsets.names hd rfl
  paired := paired_apply e h.paired
  watched metric hmetric labels hset := by
    rcases gauge_apply hset with hbefore | hsets
    · exact h.watched metric hmetric labels hbefore
    · cases hsets with
      | restart r identity => exact absurd hmetric terminationFamily_notMem
      | certificate family =>
        obtain ⟨rfl, hkey⟩ := reads
        obtain ⟨hns, hname, htype⟩ := get?_certificateLabels _ _
        exact ⟨hns, hname, _, hkey, htype⟩
  tracked identity n hprior := by
    rcases counter_apply hprior with hbefore | ⟨r, rfl, hset⟩
    · obtain ⟨labels, hset, hnames⟩ := h.tracked identity n hbefore
      exact ⟨labels, termination_apply e hset, hnames⟩
    · exact ⟨r.labels, hset, get?_restartLabels r⟩

theorem applyAll (h : v.Schema subject) {effects : List Effect}
    (reads : ∀ e ∈ effects, e.ReadsOnly subject) : (v.applyAll effects).1.Schema subject := by
  induction effects generalizing v with
  | nil => exact h
  | cons e rest ih =>
    have hnext := h.apply (reads e List.mem_cons_self)
    exact ih hnext fun e' he' => reads e' (List.mem_cons_of_mem _ he')

end Schema

end Vitals

/-! ## What passes read -/

/-- A pass of a pod reads no certificate. -/
theorem readsOnly_podPlan (subject : ObjectKey) {key : ObjectKey} {late : Error}
    {allowed : Option Nat} {found : Except Error Pod} :
    ∀ e ∈ (podPlan key late allowed found).effects, e.ReadsOnly subject := by
  intro e he
  rcases found with err | pod
  · simp only [podPlan] at he
    split at he
    · exact absurd he List.not_mem_nil
    · rw [List.mem_singleton.1 he]
      trivial
  · have hmem := (beforeDeadline_isPrefixOf allowed (podSteps pod)).subset he
    obtain ⟨step, hstep, rfl⟩ := List.mem_map.1 hmem
    obtain ⟨status, -, rfl⟩ := List.mem_map.1 hstep
    trivial

/-- A pass of a secret reads its certificates. -/
theorem readsOnly_certificatePlan {key : ObjectKey} {interval : Duration} {now : Instant}
    {late : Error} {allowed : Option Nat} {found : Except Error Secret} :
    ∀ e ∈ (certificatePlan key interval now late allowed found).effects, e.ReadsOnly key := by
  intro e he
  rcases found with err | secret
  · simp only [certificatePlan] at he
    split at he
    · rw [List.mem_singleton.1 he]
      trivial
    · exact absurd he List.not_mem_nil
  · have hslot : ∀ e ∈ (beforeDeadline allowed (secretSteps key now secret)).1,
        e.ReadsOnly key := by
      intro e he
      have hmem := (beforeDeadline_isPrefixOf allowed (secretSteps key now secret)).subset he
      obtain ⟨step, hstep, rfl⟩ := List.mem_map.1 hmem
      obtain ⟨entry, -, rfl⟩ := List.mem_map.1 hstep
      unfold slotStep
      split
      · exact ⟨rfl, ‹_›⟩
      · trivial
    simp only [certificatePlan] at he
    split at he
    · rcases List.mem_append.1 he with he | he
      · exact hslot e he
      · rw [List.mem_singleton.1 he]
        trivial
    · exact hslot e he

def Answer.kind : Answer → ObjectKind
  | .pod _ => .pod
  | .secret _ => .secret

/-- The answer is one to the fetch of the pass. -/
def Errand.Answered (d : Dispatcher) (e : Errand) : Prop :=
  ∀ kind, d.need e.notification = some kind → e.answer.kind = kind

theorem kind_answer (c : Cluster) (kind : ObjectKind) (key : ObjectKey) :
    (c.answer kind key).2.1.kind = kind := by
  unfold Cluster.answer
  split <;> cases kind <;> rfl

namespace Dispatcher

/-- Secrets are fetched for the one that is watched only. -/
theorem key_of_need_secret {d : Dispatcher} {n : Notification} (h : d.need n = some .secret) :
    n.key = d.subject := by
  by_contra hkey
  simp only [need, route, if_neg hkey] at h
  cases hkind : n.kind <;> rw [hkind] at h <;> cases h

/-- Passes read no certificates but those of the secret that is watched. -/
theorem readsOnly_work {d : Dispatcher} {e : Errand} (answered : e.Answered d) :
    ∀ effect ∈ (d.work e).effects, effect.ReadsOnly d.subject := by
  rcases hneed : d.need e.notification with _ | kind
  · rw [work_of_need_none hneed]
    intro effect heffect
    rw [List.mem_singleton.1 heffect]
    trivial
  · rw [work_of_need_some hneed]
    have hkind := answered kind hneed
    rcases hanswer : e.answer with found | found
    · exact readsOnly_podPlan d.subject
    · rw [hanswer] at hkind
      obtain rfl : .secret = kind := hkind
      rw [← key_of_need_secret hneed]
      exact readsOnly_certificatePlan

end Dispatcher

namespace Controller

open State

variable {c : Controller}

/-- What an event does reads no certificates but those of the secret that is watched. -/
theorem Orderly.readsOnly {s : State} {out : State × List Entry} (h : Orderly c s)
    (turn : Turn c s out) : ∀ effect ∈ effects out.2, effect.ReadsOnly c.dispatcher.subject := by
  cases turn.deed with
  | nothing quiet =>
    rw [quiet]
    exact fun _ hmem => absurd hmem List.not_mem_nil
  | forget pass need does ended =>
    rw [does]
    intro effect hmem
    rw [List.mem_singleton.1 hmem]
    trivial
  | @answer r kind since ready allowed fetching does ended =>
    have hneed := h.needed _ fetching kind ⟨since, ready, rfl⟩
    rw [does, ← work_errand hneed]
    refine Dispatcher.readsOnly_work ?_
    intro kind' hneed'
    obtain rfl : kind = kind' := Option.some.inj (hneed.symm.trans hneed')
    exact kind_answer s.cluster kind r.key

/-- Neither does a run. -/
theorem readsOnly_run (c : Controller) (clock : Instant) (events : List Event) :
    ∀ effect ∈ effects (c.run (.initial clock) events).2,
      effect.ReadsOnly c.dispatcher.subject := by
  have hrun := run_of_nil c (fun s j => Regular c s j ∧
      ∀ effect ∈ effects j, effect.ReadsOnly c.dispatcher.subject)
    (fun s j e ⟨hregular, hreads⟩ => by
      refine ⟨hregular.step e, ?_⟩
      rw [effects_append]
      exact List.forall_mem_append.2
        ⟨hreads, hregular.orderly.readsOnly (turn_step c s e)⟩)
    (.initial clock) events
    ⟨regular_initial c clock, fun _ hmem => absurd hmem List.not_mem_nil⟩
  exact hrun.2

theorem schema_run (c : Controller) (clock : Instant) (events : List Event) :
    (c.run (.initial clock) events).1.vitals.Schema c.dispatcher.subject := by
  rw [applies_run (c := c) (.initial clock) events]
  exact (Vitals.schema_initial _).applyAll (readsOnly_run c clock events)

/-- What is published follows the schema, whatever happens. -/
structure SchemaKept (c : Controller) : Prop where
  /-- It does in every state of every run. -/
  runs : ∀ clock events,
    (c.run (.initial clock) events).1.vitals.Schema c.dispatcher.subject
  /-- It does after any effects of passes, in any order and broken off anywhere, whatever the
  answers to their fetches were. -/
  parts : ∀ effects : List Effect,
    (∀ effect ∈ effects, ∃ e : Errand, e.Answered c.dispatcher ∧
      effect ∈ (c.dispatcher.work e).effects) →
    (Vitals.initial.applyAll effects).1.Schema c.dispatcher.subject

theorem schema_kept (c : Controller) : SchemaKept c where
  runs := c.schema_run
  parts effects works := by
    refine (Vitals.schema_initial _).applyAll ?_
    intro effect hmem
    obtain ⟨e, hanswered, hwork⟩ := works effect hmem
    exact Dispatcher.readsOnly_work hanswered effect hwork

end Controller

end ClusterVitals
