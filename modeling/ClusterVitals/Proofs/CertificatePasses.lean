import ClusterVitals.Proofs.RegistryHistory
import ClusterVitals.Proofs.Surroundings
import ClusterVitals.Reconcile.Direct

/-!
# What a certificate pass changes

A pass over a secret sets the two gauges of each slot that holds a certificate, to the end of the
certificate and to the days that are left of it, and leaves every other gauge of every family. A
pass for a secret that does not exist removes the gauges that name the secret, and no others. Either
way the secret is looked at again after the recheck interval.

## Shape of the proofs

`apply_slotStep` says what one slot does: it publishes its certificate, or changes nothing. Two
inductions over the slots follow: gauges that no slot publishes are left alone (`get?_slots_of_ne`),
and slots without a certificate may as well not be there (`applyAll_slots_filter`). That published
values stay as the later slots are read is `Vitals.showsAll_slots`.
-/

namespace ClusterVitals

/-- A slot of a secret holds a certificate: its data key is one for certificates, and its bytes can
be read. -/
def Secret.Certifies (secret : Secret) (dataKey : String) (expires : Instant) : Prop :=
  dataKey ∈ certificateKeys ∧
    ∃ material, secret.data[dataKey]? = some material ∧ Certificate.evaluate material = .ok expires

/-- The secret without one of its slots. -/
def Secret.without (secret : Secret) (dataKey : String) : Secret :=
  { secret with data := secret.data.erase dataKey }

/-- The values that the slots of a secret give to gauges, as read at an instant. -/
inductive Secret.Publishes (secret : Secret) (now : Instant) :
    String → LabelSet → Binary64 → Prop where
  | expiration {dataKey : String} {expires : Instant} (slot : secret.Certifies dataKey expires) :
      Publishes secret now Metrics.expirationFamily.name (certificateLabels secret.key dataKey)
        (.ofInt expires.unixSeconds)
  | daysLeft {dataKey : String} {expires : Instant} (slot : secret.Certifies dataKey expires) :
      Publishes secret now Metrics.daysLeftFamily.name (certificateLabels secret.key dataKey)
        (expires.daysUntil now)

/-- What is published under labels is a matter of the slot that they name. -/
theorem Secret.Publishes.congr {secret other : Secret} {now : Instant} {metric : String}
    {labels : LabelSet} {value : Binary64} (h : secret.Publishes now metric labels value)
    (keyed : secret.key = other.key)
    (same : ∀ dataKey, labels = certificateLabels secret.key dataKey →
      secret.data[dataKey]? = other.data[dataKey]?) :
    other.Publishes now metric labels value := by
  cases h with
  | @expiration dataKey expires slot =>
    rw [Certifies, same dataKey rfl] at slot
    exact keyed ▸ .expiration slot
  | @daysLeft dataKey expires slot =>
    rw [Certifies, same dataKey rfl] at slot
    exact keyed ▸ .daysLeft slot

theorem Secret.mem_entries {secret : Secret} {dataKey : String} {material : List UInt8} :
    (dataKey, material) ∈ secret.entries ↔ secret.data[dataKey]? = some material :=
  Std.ExtTreeMap.mem_toList_iff_getElem?_eq_some

namespace Vitals

variable (v : Vitals) {key : ObjectKey} {now : Instant}

/-! ## Slots -/

/-- A slot with a certificate publishes it, and any other slot changes nothing. -/
theorem apply_slotStep (entry : String × List UInt8) :
    (∃ expires, entry.1 ∈ certificateKeys ∧ Certificate.evaluate entry.2 = .ok expires ∧
      (v.apply (slotStep key now entry).effect).1 =
        v.publish key entry.1 expires (expires.daysUntil now)) ∨
    ((∀ expires, ¬(entry.1 ∈ certificateKeys ∧ Certificate.evaluate entry.2 = .ok expires)) ∧
      (v.apply (slotStep key now entry).effect).1 = v) := by
  by_cases hkey : entry.1 ∈ certificateKeys
  · rw [slotStep, if_pos hkey]
    show _ ∨ (_ ∧ (v.assess key entry.1 entry.2 now).1 = v)
    rcases hread : Certificate.evaluate entry.2 with e | expires
    · exact .inr ⟨by simp, by rw [assess, hread]⟩
    · refine .inl ⟨expires, hkey, rfl, ?_⟩
      show (v.assess key entry.1 entry.2 now).1 = _
      rw [assess, hread]
  · rw [slotStep, if_neg hkey]
    exact .inr ⟨fun _ h => hkey h.1, rfl⟩

/-- Publishing a certificate leaves the other families alone. -/
theorem get?_publish_of_notMem (secret : ObjectKey) (dataKey : String) (expires : Instant)
    (daysLeft : Binary64) {metric : String} (other : metric ∉ certificateFamilies)
    (labels : LabelSet) :
    (v.publish secret dataKey expires daysLeft).registry.get? metric labels =
      v.registry.get? metric labels := by
  rw [publish, Registry.get?_set, if_neg, Registry.get?_set, if_neg]
  · rintro ⟨rfl, -⟩
    exact other List.mem_cons_self
  · rintro ⟨rfl, -⟩
    exact other (List.mem_cons_of_mem _ List.mem_cons_self)

/-- A gauge that no slot publishes is left alone. -/
theorem get?_slots_of_ne {entries : List (String × List UInt8)} {metric : String}
    {labels : LabelSet}
    (apart : ∀ entry ∈ entries, ∀ expires, entry.1 ∈ certificateKeys →
      Certificate.evaluate entry.2 = .ok expires → metric ∈ certificateFamilies →
        labels ≠ certificateLabels key entry.1) :
    (v.applyAll (slots key now entries)).1.registry.get? metric labels =
      v.registry.get? metric labels := by
  induction entries generalizing v with
  | nil => rfl
  | cons entry rest ih =>
    refine (ih _ fun e he => apart e (List.mem_cons_of_mem _ he)).trans ?_
    show (v.apply (slotStep key now entry).effect).1.registry.get? metric labels = _
    rcases v.apply_slotStep entry with ⟨expires, hkey, hread, happly⟩ | ⟨-, happly⟩ <;> rw [happly]
    by_cases hmetric : metric ∈ certificateFamilies
    · exact get?_publish _ _ _ _ _ (apart entry List.mem_cons_self expires hkey hread hmetric)
    · exact get?_publish_of_notMem _ _ _ _ _ hmetric labels

/-- Slots without a certificate may as well not be there. -/
theorem applyAll_slots_filter {entries : List (String × List UInt8)}
    {p : String × List UInt8 → Bool}
    (unread : ∀ entry ∈ entries, ¬p entry → ∀ expires,
      ¬(entry.1 ∈ certificateKeys ∧ Certificate.evaluate entry.2 = .ok expires)) :
    (v.applyAll (slots key now (entries.filter p))).1 = (v.applyAll (slots key now entries)).1 := by
  induction entries generalizing v with
  | nil => rfl
  | cons entry rest ih =>
    have hrest (w : Vitals) := ih w fun e he => unread e (List.mem_cons_of_mem _ he)
    by_cases hp : p entry
    · rw [List.filter_cons_of_pos hp]
      exact hrest _
    · rw [List.filter_cons_of_neg hp, hrest]
      rcases v.apply_slotStep entry with ⟨expires, hkey, hread, -⟩ | ⟨-, happly⟩
      · exact absurd ⟨hkey, hread⟩ (unread entry List.mem_cons_self hp expires)
      · show _ = ((v.apply (slotStep key now entry).effect).1.applyAll (slots key now rest)).1
        rw [happly]

/-- Slots change nothing of the tracker. -/
theorem tracker_slots (entries : List (String × List UInt8)) :
    (v.applyAll (slots key now entries)).1.tracker = v.tracker := by
  induction entries generalizing v with
  | nil => rfl
  | cons entry rest ih =>
    refine (ih _).trans ?_
    show (v.apply (slotStep key now entry).effect).1.tracker = _
    rcases v.apply_slotStep entry with ⟨_, -, -, happly⟩ | ⟨-, happly⟩ <;> rw [happly]
    rfl

/-- Slots keep the help texts of the families that are there. -/
theorem help?_slots (entries : List (String × List UInt8)) {metric help : String}
    (there : v.registry.help? metric = some help) :
    (v.applyAll (slots key now entries)).1.registry.help? metric = some help := by
  induction entries generalizing v with
  | nil => exact there
  | cons entry rest ih =>
    refine ih _ ?_
    show (v.apply (slotStep key now entry).effect).1.registry.help? metric = _
    rcases v.apply_slotStep entry with ⟨_, -, -, happly⟩ | ⟨-, happly⟩ <;> rw [happly]
    · rw [publish]
      exact Registry.help?_set_of_there (Registry.help?_set_of_there there)
    · exact there

/-- Removing the gauges of a secret leaves the other families alone. -/
theorem get?_clear_of_notMem (secret : ObjectKey) {metric : String}
    (other : metric ∉ certificateFamilies) (labels : LabelSet) :
    (v.clear secret).1.registry.get? metric labels = v.registry.get? metric labels := by
  show ((v.registry.deleteMatching _ _).1.deleteMatching _ _).1.get? metric labels = _
  rw [Registry.get?_deleteMatching, if_neg, Registry.get?_deleteMatching, if_neg]
  · rintro ⟨rfl, -⟩
    exact other List.mem_cons_self
  · rintro ⟨rfl, -⟩
    exact other (List.mem_cons_of_mem _ List.mem_cons_self)

end Vitals

/-! ## Passes in time -/

/-- There is time left at every look that steps take at the deadline. -/
def InTime (allowed : Option Nat) (steps : List Step) : Prop :=
  ∀ n, allowed = some n → steps.countP Step.guarded ≤ n

/-- Steps that find time left at every look are all taken. -/
theorem beforeDeadline_of_inTime {allowed : Option Nat} {steps : List Step}
    (h : InTime allowed steps) : beforeDeadline allowed steps = (steps.map Step.effect, false) := by
  rcases allowed with _ | n
  · exact beforeDeadline_none steps
  induction steps generalizing n with
  | nil => rfl
  | cons step rest ih =>
    have hcount := h n rfl
    by_cases hguarded : step.guarded
    · rw [List.countP_cons_of_pos hguarded] at hcount
      obtain ⟨m, rfl⟩ : ∃ m, n = m + 1 := ⟨n - 1, by omega⟩
      have hrest := ih m fun k hk => by cases hk; omega
      simp [beforeDeadline, hguarded, hrest]
    · rw [List.countP_cons_of_neg hguarded] at hcount
      have hrest := ih n fun k hk => by cases hk; exact hcount
      simp [beforeDeadline, hguarded, hrest]

/-- A pass in time takes all slots of its secret. -/
theorem certificatePlan_of_inTime {key : ObjectKey} {interval : Duration} {now : Instant}
    {late : Error} {allowed : Option Nat} {secret : Secret}
    (inTime : InTime allowed (secretSteps key now secret)) :
    certificatePlan key interval now late allowed (.ok secret) =
      ⟨Vitals.slots key now secret.entries, .ok (.requeue interval)⟩ := by
  rw [certificatePlan, beforeDeadline_of_inTime inTime]
  rfl

theorem Cluster.answer_of_faultless {c : Cluster} (faultless : c.faults.failures = 0)
    (kind : ObjectKind) (key : ObjectKey) : c.answer kind key = (c, c.lookup kind key, false) := by
  rw [answer, faultless]

namespace DirectRun

/-- The certificate pass over a secret that the cluster has. -/
def passOver (r : DirectRun) (secret : Secret) (timeout : Option Duration) :
    DirectRun × PassResult × List LogEvent :=
  reconcileCertificate { r with cluster := r.cluster.putSecret secret } secret.key timeout

/-- The certificate pass for a secret that the cluster does not have. -/
def passWithout (r : DirectRun) (key : ObjectKey) (timeout : Option Duration) :
    DirectRun × PassResult × List LogEvent :=
  reconcileCertificate { r with cluster := (r.cluster.removeSecret key).1 } key timeout

/-- The deadline has not come when a fetch that starts now is over. -/
def FetchesInTime (r : DirectRun) (timeout : Option Duration) : Prop :=
  ∀ d, timeout = some d →
    ringTime (r.elapsed + (r.cluster.faults.latency.getD .zero).nanos) < r.elapsed + d.nanos

section

variable {r : DirectRun} {timeout : Option Duration}

theorem looksAllowed_of_inTime (inTime : r.FetchesInTime timeout) :
    looksAllowed r.elapsed (ringTime (r.elapsed + (r.cluster.faults.latency.getD .zero).nanos))
      timeout = none := by
  rcases timeout with _ | d
  · rfl
  · exact if_neg (Nat.not_le.2 (inTime d rfl))

/-- A pass whose fetch is answered carries out the plan for what is found. -/
theorem reconcileCertificate_eq (faultless : r.cluster.faults.failures = 0) {key : ObjectKey}
    {found : Except Error Secret} {plan : Plan}
    (answered : r.cluster.lookup .secret key = .secret found)
    (planned : certificatePlan key r.dispatcher.recheckInterval r.clock (lateError key timeout)
      (looksAllowed r.elapsed (ringTime (r.elapsed + (r.cluster.faults.latency.getD .zero).nanos))
        timeout) found = plan) :
    (r.reconcileCertificate key timeout).1.vitals = (r.vitals.applyAll plan.effects).1 ∧
      (r.reconcileCertificate key timeout).2.1 = plan.result := by
  have hanswer : (r.cluster.countFetch .secret).answer .secret key =
      (r.cluster.countFetch .secret, .secret found, false) := by
    have hcount : (r.cluster.countFetch .secret).faults.failures = 0 := faultless
    rw [Cluster.answer_of_faultless hcount, ← answered]
    rfl
  rw [← planned]
  simp only [reconcileCertificate, fetchPass, hanswer]
  exact ⟨rfl, rfl⟩

/-- A pass over a secret takes its slots. -/
theorem passOver_eq (faultless : r.cluster.faults.failures = 0) (inTime : r.FetchesInTime timeout)
    (secret : Secret) :
    (r.passOver secret timeout).1.vitals =
        (r.vitals.applyAll (Vitals.slots secret.key r.clock secret.entries)).1 ∧
      (r.passOver secret timeout).2.1 = .ok (.requeue r.dispatcher.recheckInterval) := by
  have hfound : (r.cluster.putSecret secret).lookup .secret secret.key = .secret (.ok secret) := by
    simp [Cluster.lookup, Cluster.putSecret]
  exact reconcileCertificate_eq (r := { r with cluster := r.cluster.putSecret secret }) faultless
    hfound (certificatePlan_of_inTime fun _ h =>
      nomatch (looksAllowed_of_inTime inTime).symm.trans h)

variable (timeout) in
/-- A pass for a secret that does not exist removes the gauges of the secret. -/
theorem passWithout_eq (faultless : r.cluster.faults.failures = 0) (key : ObjectKey) :
    (r.passWithout key timeout).1.vitals = (r.vitals.clear key).1 ∧
      (r.passWithout key timeout).2.1 = .ok (.requeue r.dispatcher.recheckInterval) := by
  have hmissing : (r.cluster.removeSecret key).1.lookup .secret key =
      .secret (.error (.notFound key)) := by
    simp [Cluster.lookup, Cluster.removeSecret]
  exact reconcileCertificate_eq (r := { r with cluster := (r.cluster.removeSecret key).1 })
    faultless hmissing rfl

end

end DirectRun

/-- Under a controller, a pass that is in time carries out the plan for what is found, and leaves
its result. -/
theorem Controller.resume_eq {c : Controller} {s : State} {request : Request} {allowed : Option Nat}
    (faultless : s.cluster.faults.failures = 0) {found : Except Error Secret} {plan : Plan}
    (answered : s.cluster.lookup .secret request.key = .secret found)
    (planned : certificatePlan request.key c.dispatcher.recheckInterval s.clock
      (State.lateError c request) allowed found = plan) :
    (s.resume c request .secret allowed).1.vitals = (s.vitals.applyAll plan.effects).1 ∧
      (s.resume c request .secret allowed).1.completions =
        s.completions ++ [⟨request, plan.result⟩] := by
  rw [← planned]
  simp only [State.resume, Cluster.answer_of_faultless faultless, answered]
  exact ⟨rfl, rfl⟩

/-! ## The law of certificate passes -/

/-- Erasing a slot leaves the other ones, in their order. -/
theorem Secret.entries_without (secret : Secret) (dataKey : String) :
    (secret.without dataKey).entries = secret.entries.filter (·.1 ≠ dataKey) := by
  have hdata : secret.data.erase dataKey = secret.data.filter fun name _ => name ≠ dataKey := by
    refine Std.ExtTreeMap.ext_getElem? fun name => ?_
    simp only [Std.ExtTreeMap.getElem?_erase, Std.ExtTreeMap.getElem?_filter',
      Std.compare_eq_iff_eq]
    by_cases hname : dataKey = name
    · cases secret.data[name]? <;> simp [hname]
    · cases secret.data[name]? <;> simp [hname, Ne.symm hname, Option.filter]
  rw [entries, without, hdata, Std.ExtTreeMap.toList_filter]
  rfl

/-- What the certificate passes of a run change, and how they end. -/
structure CertificatePassLaw (r : DirectRun) (timeout : Option Duration) : Prop where
  /-- A pass over a secret asks for another look after the recheck interval. -/
  requeued : ∀ secret,
    (r.passOver secret timeout).2.1 = .ok (.requeue r.dispatcher.recheckInterval)
  /-- It gives the gauges of its certificates their values. -/
  published : ∀ secret metric labels value, secret.Publishes r.clock metric labels value →
    (r.passOver secret timeout).1.vitals.registry.get? metric labels = some value
  /-- It leaves every other gauge of every family. -/
  kept : ∀ secret metric labels, (∀ value, ¬secret.Publishes r.clock metric labels value) →
    (r.passOver secret timeout).1.vitals.registry.get? metric labels =
      r.vitals.registry.get? metric labels
  /-- A slot that holds no certificate changes nothing. -/
  skipped : ∀ secret dataKey, (∀ expires, ¬secret.Certifies dataKey expires) →
    (r.passOver secret timeout).1.vitals =
      (r.passOver (secret.without dataKey) timeout).1.vitals
  /-- The bytes of a slot make no difference to the gauges under other labels than its own. -/
  apart : ∀ secret other metric labels, secret.key = other.key →
    (∀ dataKey, labels = certificateLabels secret.key dataKey →
      secret.data[dataKey]? = other.data[dataKey]?) →
    (r.passOver secret timeout).1.vitals.registry.get? metric labels =
      (r.passOver other timeout).1.vitals.registry.get? metric labels
  /-- A pass for a secret that does not exist asks for another look as well. -/
  requeued_without : ∀ key,
    (r.passWithout key timeout).2.1 = .ok (.requeue r.dispatcher.recheckInterval)
  /-- It removes the gauges of certificates whose labels name the secret. -/
  cleared : ∀ key metric labels, metric ∈ certificateFamilies →
    labels.get? "namespace" = some key.ns → labels.get? "secret_name" = some key.name →
      (r.passWithout key timeout).1.vitals.registry.get? metric labels = none
  /-- It leaves every other gauge of every family. -/
  spared : ∀ key metric labels, ¬(metric ∈ certificateFamilies ∧
      labels.get? "namespace" = some key.ns ∧ labels.get? "secret_name" = some key.name) →
    (r.passWithout key timeout).1.vitals.registry.get? metric labels =
      r.vitals.registry.get? metric labels
  /-- Neither pass changes the tracker. -/
  tracker : ∀ secret key, (r.passOver secret timeout).1.vitals.tracker = r.vitals.tracker ∧
    (r.passWithout key timeout).1.vitals.tracker = r.vitals.tracker
  /-- Neither pass changes the help text of a family. -/
  helps : ∀ secret key metric help, r.vitals.registry.help? metric = some help →
    (r.passOver secret timeout).1.vitals.registry.help? metric = some help ∧
      (r.passWithout key timeout).1.vitals.registry.help? metric = some help
  /-- Under a controller, a pass over the secret that finds time left at every look comes to the
  same. -/
  managed : ∀ (c : Controller) (s : Controller.State) request allowed secret,
    c.dispatcher.recheckInterval = r.dispatcher.recheckInterval → s.vitals = r.vitals →
      s.clock = r.clock → s.cluster.faults.failures = 0 → request.key = secret.key →
        s.cluster.lookup .secret request.key = .secret (.ok secret) →
          InTime allowed (secretSteps secret.key s.clock secret) →
    (s.resume c request .secret allowed).1.vitals = (r.passOver secret timeout).1.vitals ∧
      (s.resume c request .secret allowed).1.completions =
        s.completions ++ [⟨request, (r.passOver secret timeout).2.1⟩]
  /-- So does a pass for a secret that does not exist. -/
  managed_without : ∀ (c : Controller) (s : Controller.State) request allowed,
    c.dispatcher.recheckInterval = r.dispatcher.recheckInterval → s.vitals = r.vitals →
      s.cluster.faults.failures = 0 →
        s.cluster.lookup .secret request.key = .secret (.error (.notFound request.key)) →
    (s.resume c request .secret allowed).1.vitals = (r.passWithout request.key timeout).1.vitals ∧
      (s.resume c request .secret allowed).1.completions =
        s.completions ++ [⟨request, (r.passWithout request.key timeout).2.1⟩]

section

variable {r : DirectRun} {timeout : Option Duration}
  (faultless : r.cluster.faults.failures = 0) (inTime : r.FetchesInTime timeout)
include faultless inTime

theorem published_passOver {secret : Secret} {metric : String} {labels : LabelSet}
    {value : Binary64} (publishes : secret.Publishes r.clock metric labels value) :
    (r.passOver secret timeout).1.vitals.registry.get? metric labels = some value := by
  have hshown := r.vitals.showsAll_slots secret.key r.clock secret.distinct_entries
  rw [(DirectRun.passOver_eq faultless inTime secret).1]
  cases publishes with
  | expiration slot =>
    obtain ⟨hkey, material, hslot, hread⟩ := slot
    exact (hshown _ material _ (Secret.mem_entries.2 hslot) hkey hread).1
  | daysLeft slot =>
    obtain ⟨hkey, material, hslot, hread⟩ := slot
    exact (hshown _ material _ (Secret.mem_entries.2 hslot) hkey hread).2

theorem kept_passOver {secret : Secret} {metric : String} {labels : LabelSet}
    (silent : ∀ value, ¬secret.Publishes r.clock metric labels value) :
    (r.passOver secret timeout).1.vitals.registry.get? metric labels =
      r.vitals.registry.get? metric labels := by
  rw [(DirectRun.passOver_eq faultless inTime secret).1]
  refine Vitals.get?_slots_of_ne _ ?_
  rintro ⟨dataKey, material⟩ hentry expires hkey hread hmetric rfl
  have hslot : secret.Certifies dataKey expires :=
    ⟨hkey, material, Secret.mem_entries.1 hentry, hread⟩
  rcases List.mem_pair.1 hmetric with rfl | rfl
  · exact silent _ (.expiration hslot)
  · exact silent _ (.daysLeft hslot)

/-- What is published of a slot depends on this slot only. -/
theorem apart_passOver {secret other : Secret} {metric : String} {labels : LabelSet}
    (keyed : secret.key = other.key)
    (same : ∀ dataKey, labels = certificateLabels secret.key dataKey →
      secret.data[dataKey]? = other.data[dataKey]?) :
    (r.passOver secret timeout).1.vitals.registry.get? metric labels =
      (r.passOver other timeout).1.vitals.registry.get? metric labels := by
  have hiff (value : Binary64) : secret.Publishes r.clock metric labels value ↔
      other.Publishes r.clock metric labels value :=
    ⟨fun h => h.congr keyed same, fun h => h.congr keyed.symm fun dataKey hlabels =>
      (same dataKey (keyed ▸ hlabels)).symm⟩
  by_cases hpublished : ∃ value, secret.Publishes r.clock metric labels value
  · obtain ⟨value, hvalue⟩ := hpublished
    rw [published_passOver faultless inTime hvalue,
      published_passOver faultless inTime ((hiff value).1 hvalue)]
  · have hsilent (value : Binary64) : ¬secret.Publishes r.clock metric labels value :=
      fun h => hpublished ⟨value, h⟩
    rw [kept_passOver faultless inTime hsilent,
      kept_passOver faultless inTime fun value h => hsilent value ((hiff value).2 h)]

end

/-- A pass for a certificate over any registry, whose fetch does not fail and whose deadline does
not come, changes exactly the gauges of its secret. -/
theorem certificate_pass_law (r : DirectRun) (timeout : Option Duration)
    (faultless : r.cluster.faults.failures = 0) (inTime : r.FetchesInTime timeout) :
    CertificatePassLaw r timeout where
  requeued secret := (DirectRun.passOver_eq faultless inTime secret).2
  published _ _ _ _ := published_passOver faultless inTime
  kept _ _ _ := kept_passOver faultless inTime
  skipped secret dataKey unread := by
    rw [(DirectRun.passOver_eq faultless inTime _).1, (DirectRun.passOver_eq faultless inTime _).1,
      Secret.entries_without]
    refine (Vitals.applyAll_slots_filter _ ?_).symm
    rintro ⟨name, material⟩ hentry hname expires ⟨hkey, hread⟩
    obtain rfl : name = dataKey := by simpa using hname
    exact unread expires ⟨hkey, material, Secret.mem_entries.1 hentry, hread⟩
  apart _ _ _ _ := apart_passOver faultless inTime
  requeued_without key := (DirectRun.passWithout_eq timeout faultless key).2
  cleared key metric labels hmetric hns hname := by
    rw [(DirectRun.passWithout_eq timeout faultless key).1, Vitals.get?_clear _ key hmetric,
      if_pos (contains_secretLabels.2 ⟨hns, hname⟩)]
  spared key metric labels hother := by
    rw [(DirectRun.passWithout_eq timeout faultless key).1]
    by_cases hmetric : metric ∈ certificateFamilies
    · rw [Vitals.get?_clear _ key hmetric, if_neg]
      exact fun h => hother ⟨hmetric, contains_secretLabels.1 h⟩
    · exact Vitals.get?_clear_of_notMem _ key hmetric labels
  tracker secret key := by
    rw [(DirectRun.passOver_eq faultless inTime secret).1,
      (DirectRun.passWithout_eq timeout faultless key).1]
    exact ⟨Vitals.tracker_slots _ _, rfl⟩
  helps secret key metric help there := by
    rw [(DirectRun.passOver_eq faultless inTime secret).1,
      (DirectRun.passWithout_eq timeout faultless key).1]
    refine ⟨Vitals.help?_slots _ _ there, ?_⟩
    show ((r.vitals.registry.deleteMatching _ _).1.deleteMatching _ _).1.help? metric = _
    rw [Registry.help?_deleteMatching, Registry.help?_deleteMatching, there]
  managed c s request allowed secret hinterval hvitals hclock hfaultless hkey hfound hallowed := by
    obtain ⟨hpass, hresult⟩ := DirectRun.passOver_eq faultless inTime secret
    rw [hpass, hresult, ← hvitals, ← hclock, ← hinterval]
    exact Controller.resume_eq hfaultless hfound
      ((congrArg (certificatePlan · _ _ _ _ _) hkey).trans (certificatePlan_of_inTime hallowed))
  managed_without c s request allowed hinterval hvitals hfaultless hfound := by
    obtain ⟨hpass, hresult⟩ :=
      DirectRun.passWithout_eq timeout faultless request.key
    rw [hpass, hresult, ← hvitals, ← hinterval]
    exact Controller.resume_eq hfaultless hfound rfl

/-! ## A secret with slots of every kind -/

namespace Renewal

open Certificate.Pem

/-- One slot holds a certificate, and one holds other bytes. The certificate in the third slot does
not count, as its data key is not one for certificates. -/
def secret : Secret :=
  .ofEntries ⟨"default", "tls"⟩
    [("ca.crt", FirstBlock.tenYears.bytes), ("issuer.crt", [0x2D, 0xC3]),
      ("tls.key", FirstBlock.tenYears.bytes)]

/-- Another secret of the same name. -/
def bystander : ObjectKey := ⟨"kube-system", "tls"⟩

def today : Instant := .ofUnixSeconds 1792281600

/-- Certificates that end today have been published: two of the secret and one of the other one. -/
def published : Vitals :=
  let ending (v : Vitals) (secret : ObjectKey) (dataKey : String) :=
    v.publish secret dataKey today (today.daysUntil today)
  ending (ending (ending .initial secret.key "ca.crt") secret.key "issuer.crt") bystander "ca.crt"

/-- A run with these vitals, whose fetches take a quarter of a second. -/
def run : DirectRun where
  dispatcher := { Dispatcher.ofConfig .standard with subject := secret.key }
  cluster := Cluster.empty.inject ⟨0, some ⟨250 * nanosPerMilli, by decide⟩⟩
  vitals := published
  clock := today
  elapsed := 0

def timeout : Duration := ReconcileConfig.standard.timeout

theorem getElem?_secret (dataKey : String) : secret.data[dataKey]? =
    if "tls.key" = dataKey then some FirstBlock.tenYears.bytes
    else if "issuer.crt" = dataKey then some [0x2D, 0xC3]
    else if "ca.crt" = dataKey then some FirstBlock.tenYears.bytes else none := by
  simp only [secret, Secret.ofEntries, List.foldl_cons, List.foldl_nil,
    Std.ExtTreeMap.getElem?_insert, Std.compare_eq_iff_eq, Std.ExtTreeMap.getElem?_empty]

/-- The first slot holds a certificate, and no other one does. -/
theorem certifies_iff {dataKey : String} {expires : Instant} :
    secret.Certifies dataKey expires ↔
      dataKey = "ca.crt" ∧ expires = .ofUnixSeconds 2069881946 := by
  have hbroken : Certificate.evaluate [0x2D, 0xC3] = .error (.pem .notText) := by decide +kernel
  rw [Secret.Certifies, getElem?_secret]
  split_ifs with hkey hissuer hca
  · subst hkey
    simp [certificateKeys]
  · subst hissuer
    simp [hbroken]
  · subst hca
    simp [certificateKeys, FirstBlock.evaluate_tenYears, eq_comm]
  · simp [Ne.symm hca]

/-- Only gauges of that slot are set. -/
theorem eq_of_publishes {metric : String} {labels : LabelSet} {value : Binary64}
    (h : secret.Publishes today metric labels value) :
    labels = certificateLabels secret.key "ca.crt" := by
  cases h with
  | expiration slot => rw [(certifies_iff.1 slot).1]
  | daysLeft slot => rw [(certifies_iff.1 slot).1]

end Renewal

open Renewal in
/-- A pass over the secret sets the gauges of its certificate, and leaves those of the other slots as
they are. A pass without it removes all of them, and no gauge of another secret. -/
theorem certificate_pass_law_renewal :
    run.cluster.faults.failures = 0 ∧ run.FetchesInTime timeout ∧
      let gauge (pass : DirectRun × PassResult × List LogEvent) (secret : ObjectKey)
          (dataKey : String) :=
        pass.1.vitals.registry.get? Metrics.expirationFamily.name (certificateLabels secret dataKey)
      let there := gauge (run.passOver secret timeout)
      let missing := gauge (run.passWithout secret.key timeout)
      there secret.key "ca.crt" = some (.ofInt 2069881946) ∧
        there secret.key "issuer.crt" = some (.ofInt today.unixSeconds) ∧
        there secret.key "tls.key" = none ∧
        there bystander "ca.crt" = some (.ofInt today.unixSeconds) ∧
        missing secret.key "ca.crt" = none ∧ missing secret.key "issuer.crt" = none ∧
        missing bystander "ca.crt" = some (.ofInt today.unixSeconds) := by
  have hinTime : run.FetchesInTime timeout := by
    rintro d ⟨⟩
    decide
  have law := certificate_pass_law run timeout rfl hinTime
  have hkept (key : ObjectKey) (dataKey : String)
      (other : certificateLabels key dataKey ≠ certificateLabels secret.key "ca.crt") :=
    law.kept secret Metrics.expirationFamily.name (certificateLabels key dataKey)
      fun _ h => other (eq_of_publishes h)
  have hcleared (dataKey : String) :=
    law.cleared secret.key Metrics.expirationFamily.name (certificateLabels secret.key dataKey)
      (by decide) (get?_certificateLabels _ _).1 (get?_certificateLabels _ _).2.1
  have hspared := law.spared secret.key Metrics.expirationFamily.name
    (certificateLabels bystander "ca.crt") (by decide)
  refine ⟨rfl, hinTime, ?_, (hkept _ _ (by decide)).trans (by decide +kernel),
    (hkept _ _ (by decide)).trans (by decide +kernel),
    (hkept _ _ (by decide)).trans (by decide +kernel), hcleared _, hcleared _,
    hspared.trans (by decide +kernel)⟩
  exact law.published secret _ _ _ (.expiration (certifies_iff.2 ⟨rfl, rfl⟩))

end ClusterVitals
