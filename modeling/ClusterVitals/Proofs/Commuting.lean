import ClusterVitals.Proofs.Views

/-!
# Effects that commute

What is done for different objects can be done in either order: the vitals come out the same, with
every family and every gauge.

## Shape of the proofs

Trackers and registries are equal once they show the same, so what holds of a single look-up gives
which changes of them commute. `Call.Apart` collects these changes, and `Call.WorksOn.apart` finds
calls for different objects among them: their counters and labels name the objects. Effects are
taken apart into their calls, which are the same whatever was done for other objects before.
-/

namespace ClusterVitals

namespace Registry

/-- The help text of a family, if there is the family. -/
def help? (r : Registry) (metric : String) : Option String := r.families[metric]?.map Family.help

/-- A registry is what its families and gauges show. -/
theorem ext_shown {r s : Registry} (help : ∀ metric, r.help? metric = s.help? metric)
    (gauges : ∀ metric labels, r.get? metric labels = s.get? metric labels) : r = s := by
  obtain ⟨f⟩ := r
  obtain ⟨g⟩ := s
  congr 1
  refine Std.ExtTreeMap.ext_getElem? fun metric => ?_
  have hhelp : f[metric]?.map Family.help = g[metric]?.map Family.help := help metric
  have hgauges (labels : LabelSet) :
      (f[metric]?.getD .empty).cells[labels]? = (g[metric]?.getD .empty).cells[labels]? :=
    gauges metric labels
  rcases hf : f[metric]? with _ | a <;> rcases hg : g[metric]? with _ | b <;>
    rw [hf, hg] at hhelp hgauges
  · cases hhelp
  · cases hhelp
  · obtain ⟨help, cells⟩ := a
    obtain ⟨help', cells'⟩ := b
    obtain rfl : help = help' := Option.some.inj hhelp
    obtain rfl : cells = cells' := Std.ExtTreeMap.ext_getElem? hgauges
    rfl

variable (r : Registry) (metric other : String) (labels others subset subset' : LabelSet)
  (value value' : Binary64)

/-- Setting a gauge creates its family, without help, if there is none. -/
theorem help?_set :
    (r.set metric labels value).help? other =
      if metric = other then some ((r.help? metric).getD "") else r.help? other := by
  by_cases h : metric = other
  · subst h
    rcases hfound : r.families[metric]? with _ | found <;>
      simp [set, help?, family, Family.empty, hfound]
  · simp [set, help?, Std.ExtTreeMap.getElem?_insert, h]

/-- Removing gauges keeps all families. -/
theorem help?_deleteMatching :
    (r.deleteMatching metric subset).1.help? other = r.help? other := by
  unfold deleteMatching
  split
  · rfl
  · rename_i found hfound
    by_cases h : metric = other
    · subst h
      simp [help?, hfound]
    · simp [help?, Std.ExtTreeMap.getElem?_insert, h]

/-- Different gauges can be set in either order. -/
theorem set_comm (h : ¬(metric = other ∧ labels = others)) :
    (r.set metric labels value).set other others value' =
      (r.set other others value').set metric labels value := by
  refine ext_shown (fun name => ?_) (fun name ls => ?_)
  · simp only [help?_set]
    split <;> split <;> simp_all
  · simp only [get?_set]
    split <;> split <;> simp_all

/-- A gauge that is not among the removed ones can be set before or after. -/
theorem deleteMatching_set_comm (h : ¬(metric = other ∧ labels.contains subset)) :
    ((r.set metric labels value).deleteMatching other subset).1 =
      (r.deleteMatching other subset).1.set metric labels value := by
  refine ext_shown (fun name => ?_) (fun name ls => ?_)
  · simp only [help?_set, help?_deleteMatching]
  · simp only [get?_set, get?_deleteMatching]
    split <;> split <;> simp_all

/-- Gauges can be removed in either order. -/
theorem deleteMatching_comm :
    ((r.deleteMatching metric subset).1.deleteMatching other subset').1 =
      ((r.deleteMatching other subset').1.deleteMatching metric subset).1 := by
  refine ext_shown (fun name => ?_) (fun name ls => ?_)
  · simp only [help?_deleteMatching]
  · simp only [get?_deleteMatching]
    split <;> split <;> rfl

/-- Only the last value of a gauge counts. -/
theorem set_set :
    (r.set metric labels value).set metric labels value' = r.set metric labels value' := by
  refine ext_shown (fun name => ?_) (fun name ls => ?_)
  · simp only [help?_set]
    split <;> rfl
  · simp only [get?_set]
    split <;> rfl

/-- What has been removed is not there to be removed again. -/
theorem deleteMatching_deleteMatching :
    ((r.deleteMatching metric subset).1.deleteMatching metric subset).1 =
      (r.deleteMatching metric subset).1 := by
  refine ext_shown (fun name => ?_) (fun name ls => ?_)
  · simp only [help?_deleteMatching]
  · simp only [get?_deleteMatching]
    split <;> rfl

end Registry

namespace Tracker

/-- A tracker is the counters that it keeps. -/
theorem ext_prior {s t : Tracker} (h : ∀ identity, s.prior? identity = t.prior? identity) :
    s = t := by
  obtain ⟨s⟩ := s
  obtain ⟨t⟩ := t
  exact congrArg _ (Std.ExtTreeMap.ext_getElem? h)

variable (t : Tracker) {identity other : ContainerIdentity} {pod pod' : ObjectKey}
  (counter counter' : Nat) (hasExit hasExit' : Bool)

/-- Counters of different containers can be offered in either order. -/
theorem observe_comm (h : identity ≠ other) :
    ((t.observe identity counter hasExit).1.observe other counter' hasExit').1 =
      ((t.observe other counter' hasExit').1.observe identity counter hasExit).1 := by
  have hother : (t.observe identity counter hasExit).1.prior? other = t.prior? other := by
    rw [prior?_observe, if_neg fun h' => h h'.2.2]
  have hidentity : (t.observe other counter' hasExit').1.prior? identity = t.prior? identity := by
    rw [prior?_observe, if_neg fun h' => h h'.2.2.symm]
  refine ext_prior fun i => ?_
  rw [prior?_observe _ other i, hother, prior?_observe t identity i, prior?_observe _ identity i,
    hidentity, prior?_observe t other i]
  split <;> split <;> simp_all

/-- A pod can be forgotten before or after a container of another pod is offered. -/
theorem evict_observe_comm (h : identity.pod ≠ pod) :
    ((t.observe identity counter hasExit).1.evict pod).1 =
      ((t.evict pod).1.observe identity counter hasExit).1 := by
  have hkept : ¬identity.belongsTo pod := by simpa [ContainerIdentity.belongsTo] using h
  refine ext_prior fun i => ?_
  rw [prior?_evict, prior?_observe, prior?_observe, prior?_evict, prior?_evict, if_neg hkept]
  split
  · -- the container that is offered is not one of the pod
    rename_i hi
    rw [if_neg]
    rintro ⟨-, -, rfl⟩
    exact hkept hi
  · rfl

/-- Pods can be forgotten in either order. -/
theorem evict_comm : ((t.evict pod).1.evict pod').1 = ((t.evict pod').1.evict pod).1 := by
  refine ext_prior fun i => ?_
  simp only [prior?_evict]
  split <;> split <;> rfl

/-- What is forgotten cannot be forgotten again. -/
theorem evict_evict : ((t.evict pod).1.evict pod).1 = (t.evict pod).1 := by
  refine ext_prior fun i => ?_
  simp only [prior?_evict]
  split <;> rfl

end Tracker

/-! ## Folds -/

section

variable {α β γ : Type*} {f : α → β → α} {g : α → γ → α}

theorem foldl_comm_step {step : α → α} {xs : List β}
    (h : ∀ x ∈ xs, ∀ a, f (step a) x = step (f a x)) (a : α) :
    xs.foldl f (step a) = step (xs.foldl f a) := by
  induction xs generalizing a with
  | nil => rfl
  | cons x rest ih =>
    rw [List.foldl_cons, h x List.mem_cons_self]
    exact ih (fun y hy => h y (List.mem_cons_of_mem _ hy)) (f a x)

/-- What commutes step by step commutes as a whole. -/
theorem foldl_comm_foldl {xs : List β} {ys : List γ}
    (h : ∀ x ∈ xs, ∀ y ∈ ys, ∀ a, g (f a x) y = f (g a y) x) (a : α) :
    ys.foldl g (xs.foldl f a) = xs.foldl f (ys.foldl g a) := by
  induction xs generalizing a with
  | nil => rfl
  | cons x rest ih =>
    rw [List.foldl_cons, ih (fun y hy => h y (List.mem_cons_of_mem _ hy)),
      foldl_comm_step (h x List.mem_cons_self)]
    rfl

end

/-! ## Calls -/

namespace Call

/-- Neither call touches what the other one touches. -/
def Apart : Call → Call → Prop
  | .observe o _, .observe o' _ => o.identity ≠ o'.identity
  | .observe o _, .evict pod | .evict pod, .observe o _ => o.pod ≠ pod
  | .set metric p, .set metric' p' => ¬(metric = metric' ∧ p.labels = p'.labels)
  | .set metric p, .delete metric' subset | .delete metric' subset, .set metric p =>
    ¬(metric = metric' ∧ p.labels.contains subset)
  | _, _ => True

/-- A call works on the containers of a pod, or on gauges that name an object. -/
def WorksOn (key : ObjectKey) : Call → Prop
  | .observe o _ => o.pod = key
  | .evict pod => pod = key
  | .set metric p =>
    (metric = Metrics.terminationFamily.name ∧
      p.labels.get? "namespace" = some key.ns ∧ p.labels.get? "pod" = some key.name) ∨
    (metric ∈ certificateFamilies ∧ p.labels.contains (secretLabels key))
  | .delete metric subset => metric ∈ certificateFamilies ∧ subset = secretLabels key

/-- Gauges that are set for different objects are different. -/
theorem apart_set {key other : ObjectKey} (hne : key ≠ other) {metric metric' : String}
    {p p' : Sample} (h : (set metric p).WorksOn key) (h' : (set metric' p').WorksOn other) :
    (set metric p).Apart (set metric' p') := by
  rintro ⟨rfl, hlabels⟩
  rcases h with ⟨rfl, hns, hname⟩ | ⟨hmetric, hcontains⟩
  · rcases h' with ⟨-, hns', hname'⟩ | ⟨hmetric, -⟩
    · rw [hlabels, hns'] at hns
      rw [hlabels, hname'] at hname
      cases key
      cases other
      simp_all
    · exact terminationFamily_notMem hmetric
  · rcases h' with ⟨rfl, -⟩ | ⟨-, hcontains'⟩
    · exact terminationFamily_notMem hmetric
    · rw [hlabels] at hcontains
      exact hne (eq_of_contains_secretLabels hcontains hcontains')

/-- A gauge that is set for an object is not among those that are removed of another one. -/
theorem notMem_delete {key other : ObjectKey} (hne : key ≠ other) {metric metric' : String}
    {p : Sample} {subset : LabelSet} (h : (set metric p).WorksOn key)
    (h' : (delete metric' subset).WorksOn other) :
    ¬(metric = metric' ∧ p.labels.contains subset) := by
  rintro ⟨rfl, hsubset⟩
  obtain ⟨hmetric, rfl⟩ := h'
  rcases h with ⟨rfl, -⟩ | ⟨-, hcontains⟩
  · exact terminationFamily_notMem hmetric
  · exact hne (eq_of_contains_secretLabels hcontains hsubset)

/-- Calls that work on different objects are apart. -/
theorem WorksOn.apart {key other : ObjectKey} (hne : key ≠ other) {a b : Call}
    (h : a.WorksOn key) (h' : b.WorksOn other) : a.Apart b := by
  cases a with
  | observe o told =>
    obtain rfl := h
    cases b with
    | observe o' told' =>
      obtain rfl := h'
      exact fun hidentity => hne (congrArg ContainerIdentity.pod hidentity)
    | evict pod => exact h' ▸ hne
    | _ => trivial
  | evict pod =>
    obtain rfl := h
    cases b with
    | observe o told => exact fun hpod => hne (hpod.symm.trans h')
    | _ => trivial
  | set metric p =>
    cases b with
    | set metric' p' => exact apart_set hne h h'
    | delete metric' subset => exact notMem_delete hne h h'
    | _ => trivial
  | delete metric subset =>
    cases b with
    | set metric' p => exact notMem_delete hne.symm h' h
    | _ => trivial

end Call

namespace Vitals

/-- Performs a call. -/
def perform (v : Vitals) : Call → Vitals
  | .observe o _ =>
    { v with
      tracker := (v.tracker.observe o.identity o.counter o.status.lastTermination.isSome).1 }
  | .evict pod => { v with tracker := (v.tracker.evict pod).1 }
  | .set metric p => { v with registry := v.registry.set metric p.labels p.value }
  | .delete metric subset => { v with registry := (v.registry.deleteMatching metric subset).1 }

/-- Calls that can be performed come to what performing them one by one comes to. -/
theorem Performs.eq_foldl {v w : Vitals} {calls : List Call} (h : Performs v calls w) :
    w = calls.foldl perform v := by
  induction h with
  | nil v => rfl
  | @observe v w o told rest tracker answer _ ih =>
    rw [ih, List.foldl_cons, perform, answer]
  | evict _ ih => exact ih
  | set _ ih => exact ih
  | delete _ ih => exact ih

theorem apply_eq_foldl (v : Vitals) (e : Effect) : (v.apply e).1 = (v.calls e).foldl perform v :=
  (performs_calls v e).eq_foldl

/-- Calls that are apart commute. -/
theorem perform_comm (v : Vitals) {a b : Call} (h : a.Apart b) :
    (v.perform a).perform b = (v.perform b).perform a := by
  -- a call on the tracker and one on the registry commute as they stand
  cases a with
  | observe o told =>
    cases b with
    | observe o' told' => exact congrArg (Vitals.mk · _) (v.tracker.observe_comm _ _ _ _ h)
    | evict pod => exact congrArg (Vitals.mk · _) (v.tracker.evict_observe_comm _ _ h)
    | _ => rfl
  | evict pod =>
    cases b with
    | observe o told =>
      have hpod : o.identity.pod ≠ pod := h
      exact congrArg (Vitals.mk · _) (v.tracker.evict_observe_comm _ _ hpod).symm
    | evict pod' => exact congrArg (Vitals.mk · _) v.tracker.evict_comm
    | _ => rfl
  | set metric p =>
    cases b with
    | set metric' p' => exact congrArg (Vitals.mk _) (v.registry.set_comm _ _ _ _ _ _ h)
    | delete metric' subset =>
      exact congrArg (Vitals.mk _) (v.registry.deleteMatching_set_comm _ _ _ _ _ h)
    | _ => rfl
  | delete metric subset =>
    cases b with
    | set metric' p =>
      exact congrArg (Vitals.mk _) (v.registry.deleteMatching_set_comm _ _ _ _ _ h).symm
    | delete metric' subset' =>
      exact congrArg (Vitals.mk _) (v.registry.deleteMatching_comm _ _ _ _)
    | _ => rfl

/-! ## Effects -/

/-- Effects whose calls are apart, and the same before and after the other one, commute. -/
theorem apply_comm_of_calls (v : Vitals) {e e' : Effect}
    (apart : ∀ a ∈ v.calls e, ∀ b ∈ v.calls e', a.Apart b)
    (same : (v.apply e').1.calls e = v.calls e) (same' : (v.apply e).1.calls e' = v.calls e') :
    ((v.apply e).1.apply e').1 = ((v.apply e').1.apply e).1 := by
  rw [apply_eq_foldl (v.apply e).1, same', apply_eq_foldl (v.apply e').1, same, apply_eq_foldl v e,
    apply_eq_foldl v e', foldl_comm_foldl fun a ha b hb v => v.perform_comm (apart a ha b hb)]

theorem observe_snd_congr {s t : Tracker} {identity : ContainerIdentity} (counter : Nat)
    (hasExit : Bool) (h : s.prior? identity = t.prior? identity) :
    (s.observe identity counter hasExit).2 = (t.observe identity counter hasExit).2 := by
  simp only [Tracker.observe, h]
  split <;> rfl

/-- The calls of an effect depend on what is held of its object only. -/
theorem calls_congr {v w : Vitals} {e : Effect}
    (agree : ∀ key, e.subject? = some key → AgreeOn key v w) : w.calls e = v.calls e := by
  cases e with
  | offer pod status =>
    have hprior := (agree pod rfl).counters ⟨pod, status.name⟩ rfl
    have htold := observe_snd_congr status.restarts status.lastTermination.isSome hprior
    simp only [calls, observeStatus_snd, htold]
  | _ => rfl

/-- The calls of an effect work on its object. -/
theorem worksOn_calls (v : Vitals) {e : Effect} {a : Call} (h : a ∈ v.calls e) :
    ∃ key, e.subject? = some key ∧ a.WorksOn key := by
  cases e with
  | offer pod status =>
    refine ⟨pod, rfl, ?_⟩
    rcases List.mem_cons.1 h with rfl | h
    · rfl
    · rcases hr : (v.tracker.observeStatus pod status).2 with _ | r <;> rw [hr] at h
      · exact absurd h List.not_mem_nil
      · obtain ⟨-, exit, -, rfl⟩ := observeStatus_eq_some_iff.1 hr
        rw [List.mem_singleton.1 h]
        exact .inl ⟨rfl, by simp [Restart.labels, LabelSet.ofList, LabelSet.get?_insert]⟩
  | evict pod => exact ⟨pod, rfl, by rw [List.mem_singleton.1 h]; rfl⟩
  | assess secret dataKey material now =>
    refine ⟨secret, rfl, ?_⟩
    have hlabels : (certificateLabels secret dataKey).contains (secretLabels secret) :=
      contains_certificateLabels.2 rfl
    simp only [calls] at h
    split at h
    · rcases List.mem_pair.1 h with rfl | rfl
      · exact .inr ⟨List.mem_cons_self, hlabels⟩
      · exact .inr ⟨List.mem_cons_of_mem _ List.mem_cons_self, hlabels⟩
    · exact absurd h List.not_mem_nil
  | clear secret =>
    refine ⟨secret, rfl, ?_⟩
    rcases List.mem_pair.1 h with rfl | rfl
    · exact ⟨List.mem_cons_self, rfl⟩
    · exact ⟨List.mem_cons_of_mem _ List.mem_cons_self, rfl⟩
  | report event => exact absurd h List.not_mem_nil

end Vitals

namespace Effect

/-- Two effects are not about one object. -/
def Apart (e e' : Effect) : Prop :=
  ∀ key, e.subject? = some key → e'.subject? ≠ some key

theorem Apart.of_ne {key other : ObjectKey} (hne : key ≠ other) {e e' : Effect}
    (h : e.subject? = none ∨ e.subject? = some key)
    (h' : e'.subject? = none ∨ e'.subject? = some other) : e.Apart e' := by
  rintro k hk hk'
  rw [hk] at h
  rw [hk'] at h'
  simp_all

end Effect

namespace Vitals

/-- Effects that are not about one object commute. -/
theorem apply_comm (v : Vitals) {e e' : Effect} (h : e.Apart e') :
    ((v.apply e).1.apply e').1 = ((v.apply e').1.apply e).1 := by
  refine v.apply_comm_of_calls ?_ (calls_congr fun key hkey => ?_) (calls_congr fun key hkey => ?_)
  · intro a ha b hb
    obtain ⟨key, hkey, hworks⟩ := v.worksOn_calls ha
    obtain ⟨other, hother, hworks'⟩ := v.worksOn_calls hb
    refine hworks.apart ?_ hworks'
    rintro rfl
    exact h key hkey hother
  · exact v.agreeOn_apply (h key hkey)
  · exact v.agreeOn_apply fun hkey' => h key hkey' hkey

theorem applyAll_eq_foldl (v : Vitals) (effects : List Effect) :
    (v.applyAll effects).1 = effects.foldl (fun v e => (v.apply e).1) v := by
  induction effects generalizing v with
  | nil => rfl
  | cons e rest ih => exact ih _

/-- Effects that are about different objects can be applied in either order. -/
theorem applyAll_comm (v : Vitals) {first second : List Effect}
    (h : ∀ e ∈ first, ∀ e' ∈ second, e.Apart e') :
    ((v.applyAll first).1.applyAll second).1 = ((v.applyAll second).1.applyAll first).1 := by
  simp only [applyAll_eq_foldl]
  exact foldl_comm_foldl (fun e he e' he' v => v.apply_comm (h e he e' he')) v

end Vitals

end ClusterVitals
