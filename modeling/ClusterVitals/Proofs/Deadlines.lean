import ClusterVitals.Proofs.CertificatePasses
import ClusterVitals.Proofs.LostPasses
import ClusterVitals.Proofs.VirtualClock
import Mathlib.Data.List.TakeWhile

/-!
# Which passes run out of time

On a virtual clock, time goes by only up to what is due next, and a pass looks at its deadline in no
time. So a pass fetches until its answer or its deadline is due, whichever comes first, and both can
come at once. Then the answer is taken, and its first look finds no time left.

## Shape of the proofs

How a pass ends is settled first, at the event itself: `concludes_of_resume` and
`concludes_of_expire`. `Fares` says what can become of a pass that fetches at any event, and `Course`
what has become of it since it started. `Course.concat` goes from one to the other, and an induction on
the events since from there to the law.
-/

namespace ClusterVitals

/-- A duration is known by its nanoseconds. -/
theorem Duration.eq_of_nanos {a b : Duration} (h : a.nanos = b.nanos) : a = b := by
  obtain ⟨nanos, hlt⟩ := a
  obtain rfl : nanos = b.nanos := h
  rfl

/-! ## Plans of passes that find no time left -/

/-- There is something to look at before: a container of the pod, or a slot of the secret under a
data key of certificates. -/
def Cluster.HasUnit (c : Cluster) (key : ObjectKey) : ObjectKind → Prop
  | .pod => ∃ pod, c.pods[key]? = some pod ∧ pod.containers ≠ []
  | .secret => ∃ secret, c.secrets[key]? = some secret ∧
      ∃ dataKey ∈ certificateKeys, dataKey ∈ secret.data

/-- Reports change nothing. -/
theorem Vitals.applyAll_reports (v : Vitals) {effects : List Effect}
    (reports : ∀ e ∈ effects, ∃ event, e = .report event) : (v.applyAll effects).1 = v := by
  induction effects with
  | nil => rfl
  | cons e rest ih =>
    obtain ⟨⟨event, rfl⟩, hrest⟩ := List.forall_mem_cons.1 reports
    exact ih hrest

/-- Steps that look at nothing are taken at any time. -/
theorem beforeDeadline_zero_of_free {steps : List Step} (free : ¬steps.any (·.guarded) = true) :
    beforeDeadline (some 0) steps = beforeDeadline none steps := by
  have hfree : ∀ step ∈ steps, (!step.guarded) = true := by simpa using free
  rw [beforeDeadline_zero, beforeDeadline_none, Bool.eq_false_of_not_eq_true free,
    List.takeWhile_eq_self_iff.2 hfree]

theorem any_guarded_podSteps {pod : Pod} :
    (podSteps pod).any (·.guarded) = true ↔ pod.containers ≠ [] := by
  cases h : pod.containers <;> simp [podSteps, h]

theorem takeWhile_podSteps (pod : Pod) : (podSteps pod).takeWhile (!·.guarded) = [] := by
  cases h : pod.containers <;> simp [podSteps, h]

theorem guarded_slotStep {key : ObjectKey} {now : Instant} {entry : String × List UInt8} :
    (slotStep key now entry).guarded = true ↔ entry.1 ∈ certificateKeys := by
  unfold slotStep
  split <;> simp [*]

theorem any_guarded_secretSteps {key : ObjectKey} {now : Instant} {secret : Secret} :
    (secretSteps key now secret).any (·.guarded) = true ↔
      ∃ dataKey ∈ certificateKeys, dataKey ∈ secret.data := by
  simp only [secretSteps, List.any_map, List.any_eq_true, Function.comp_apply, guarded_slotStep]
  constructor
  · rintro ⟨⟨dataKey, material⟩, hentry, hkey⟩
    exact ⟨dataKey, hkey, Std.ExtTreeMap.mem_iff_isSome_getElem?.2
      (Option.isSome_iff_exists.2 ⟨material, Secret.mem_entries.1 hentry⟩)⟩
  · rintro ⟨dataKey, hkey, hmem⟩
    obtain ⟨material, hslot⟩ :=
      Option.isSome_iff_exists.1 (Std.ExtTreeMap.mem_iff_isSome_getElem?.1 hmem)
    exact ⟨(dataKey, material), Secret.mem_entries.2 hslot, hkey⟩

/-- The steps before the first slot are reports. -/
theorem reports_takeWhile_secretSteps (key : ObjectKey) (now : Instant) (secret : Secret) :
    ∀ e ∈ ((secretSteps key now secret).takeWhile (!·.guarded)).map Step.effect,
      ∃ event, e = .report event := by
  intro e he
  obtain ⟨step, hstep, rfl⟩ := List.mem_map.1 he
  have hfree : step.guarded = false := by
    simpa using List.mem_takeWhile_imp hstep
  obtain ⟨entry, -, rfl⟩ := List.mem_map.1 ((List.takeWhile_sublist _).subset hstep)
  unfold slotStep at hfree ⊢
  split at hfree
  · cases hfree
  · rename_i hkey
    rw [if_neg hkey]
    exact ⟨_, rfl⟩

namespace Dispatcher

variable (d : Dispatcher) (key : ObjectKey) (now : Instant) (late : Error) (answer : Answer)

/-- Which error a pass would be given does not matter if it always has time left. -/
theorem plan_none_congr (late' : Error) :
    d.plan key now late none answer = d.plan key now late' none answer := by
  cases answer with
  | pod found => cases found <;> simp [plan, podPlan]
  | secret found => cases found <;> simp [plan, certificatePlan]

end Dispatcher

variable {d : Dispatcher} {cluster : Cluster} {key : ObjectKey} {kind : ObjectKind}

/-- A pass that finds no time left breaks off at the first thing to look at. -/
theorem plan_of_hasUnit (h : cluster.HasUnit key kind) (now : Instant) (late : Error) :
    (d.plan key now late (some 0) (cluster.lookup kind key)).result = .error late ∧
      ∀ e ∈ (d.plan key now late (some 0) (cluster.lookup kind key)).effects,
        ∃ event, e = .report event := by
  cases kind with
  | pod =>
    obtain ⟨pod, hpod, hsome⟩ := h
    simp only [Cluster.lookup, hpod, Option.elim, Dispatcher.plan, podPlan, beforeDeadline_zero,
      any_guarded_podSteps.2 hsome, takeWhile_podSteps, if_true, List.map_nil]
    exact ⟨trivial, List.forall_mem_nil _⟩
  | secret =>
    obtain ⟨secret, hsecret, hsome⟩ := h
    simp only [Cluster.lookup, hsecret, Option.elim, Dispatcher.plan, certificatePlan,
      beforeDeadline_zero, any_guarded_secretSteps.2 hsome, if_true]
    refine ⟨trivial, fun e he => ?_⟩
    rcases List.mem_append.1 he with he | he
    · exact reports_takeWhile_secretSteps key now secret e he
    · exact ⟨_, List.mem_singleton.1 he⟩

/-- Without anything to look at, a pass does not notice that no time is left. -/
theorem plan_of_not_hasUnit (h : ¬cluster.HasUnit key kind) (now : Instant) (late : Error) :
    d.plan key now late (some 0) (cluster.lookup kind key) =
      d.plan key now late none (cluster.lookup kind key) := by
  cases kind with
  | pod =>
    rcases hpod : cluster.pods[key]? with _ | pod
    · simp only [Cluster.lookup, hpod, Option.elim, Dispatcher.plan, podPlan]
    · have hfree : ¬(podSteps pod).any (·.guarded) = true :=
        fun hany => h ⟨pod, hpod, any_guarded_podSteps.1 hany⟩
      simp only [Cluster.lookup, hpod, Option.elim, Dispatcher.plan, podPlan,
        beforeDeadline_zero_of_free hfree]
  | secret =>
    rcases hsecret : cluster.secrets[key]? with _ | secret
    · simp only [Cluster.lookup, hsecret, Option.elim, Dispatcher.plan, certificatePlan]
    · have hfree : ¬(secretSteps key now secret).any (·.guarded) = true :=
        fun hany => h ⟨secret, hsecret, any_guarded_secretSteps.1 hany⟩
      simp only [Cluster.lookup, hsecret, Option.elim, Dispatcher.plan, certificatePlan,
        beforeDeadline_zero_of_free hfree]

namespace Controller

open State

variable {c : Controller} {clock : Instant} {s : State}

/-! ## How a pass ends -/

/-- The pass without a deadline, over the cluster and the vitals of a state. -/
def unbounded (c : Controller) (s : State) (kind : ObjectKind) (key : ObjectKey) :
    DirectRun × PassResult × List LogEvent :=
  DirectRun.fetchPass ⟨c.dispatcher, s.cluster, s.vitals, s.clock, s.now⟩ kind key none

/-- A pass is out of time if its latency is longer than the timeout, or just as long while there is
something to look at. -/
def OutOfTime (c : Controller) (s : State) (key : ObjectKey) (kind : ObjectKind)
    (latency : Duration) : Prop :=
  c.config.timeout.nanos < latency.nanos ∨
    latency = c.config.timeout ∧ s.cluster.HasUnit key kind

/-- How a pass ends at an event. -/
structure Concludes (c : Controller) (s : State) (r : Request) (kind : ObjectKind)
    (latency : Duration) (e : Event) : Prop where
  /-- It leaves the result that it is out of time exactly if it is. -/
  result : ∃ result, (c.step s e).1.completions = s.completions ++ [⟨r, result⟩] ∧
    (result = .error (.timeout r.key c.config.timeout) ↔ OutOfTime c s r.key kind latency)
  /-- Out of time, it leaves the tracker and the registry as they are. -/
  late : OutOfTime c s r.key kind latency → (c.step s e).1.vitals = s.vitals
  /-- In time, it comes to the same as without a deadline. -/
  inTime : ¬OutOfTime c s r.key kind latency →
    (c.step s e).1.completions = s.completions ++ [⟨r, (c.unbounded s kind r.key).2.1⟩] ∧
      (c.step s e).1.vitals = (c.unbounded s kind r.key).1.vitals ∧
      (c.step s e).2.filterMap Entry.log? = (c.unbounded s kind r.key).2.2

/-- A pass that always finds time left comes to the same as one without a deadline. -/
theorem resume_none_eq (faultless : s.cluster.faults.failures = 0) (r : Request)
    (kind : ObjectKind) :
    (s.resume c r kind none).1.completions =
        s.completions ++ [⟨r, (c.unbounded s kind r.key).2.1⟩] ∧
      (s.resume c r kind none).1.vitals = (c.unbounded s kind r.key).1.vitals ∧
      (s.resume c r kind none).2.filterMap Entry.log? = (c.unbounded s kind r.key).2.2 := by
  have hcount : (s.cluster.countFetch kind).faults.failures = 0 := by
    cases kind <;> exact faultless
  simp only [unbounded, DirectRun.fetchPass, DirectRun.looksAllowed,
    Cluster.answer_of_faultless hcount, Cluster.lookup_countFetch]
  rw [c.dispatcher.plan_none_congr r.key s.clock _ _ (lateError c r)]
  simp only [State.resume, Cluster.answer_of_faultless faultless]
  refine ⟨rfl, rfl, ?_⟩
  simp [State.carryOut, List.filterMap_append, List.filterMap_map, Function.comp_def, Entry.log?]

/-- Without a deadline, a fetch that does not fail leads to no error. -/
theorem exists_outcome_unbounded (faultless : s.cluster.faults.failures = 0) (key : ObjectKey)
    (kind : ObjectKind) : ∃ outcome, (c.unbounded s kind key).2.1 = .ok outcome := by
  have hcount : (s.cluster.countFetch kind).faults.failures = 0 := by
    cases kind <;> exact faultless
  simp only [unbounded, DirectRun.fetchPass, DirectRun.looksAllowed,
    Cluster.answer_of_faultless hcount]
  cases kind with
  | pod =>
    simp only [Cluster.lookup, Dispatcher.plan, podPlan]
    cases (s.cluster.countFetch .pod).pods[key]? with
    | none => exact ⟨_, rfl⟩
    | some pod => exact ⟨_, by simp only [Option.elim, beforeDeadline_none]; rfl⟩
  | secret =>
    simp only [Cluster.lookup, Dispatcher.plan, certificatePlan]
    cases (s.cluster.countFetch .secret).secrets[key]? with
    | none => exact ⟨_, rfl⟩
    | some secret => exact ⟨_, by simp only [Option.elim, beforeDeadline_none]; rfl⟩

variable {r : Request} {kind : ObjectKind} {latency : Duration} {e : Event}

theorem concludes_of_resume_none (faultless : s.cluster.faults.failures = 0)
    (inTime : ¬OutOfTime c s r.key kind latency)
    (resumes : c.step s e = s.resume c r kind none) : Concludes c s r kind latency e := by
  have hsame := resume_none_eq (c := c) faultless r kind
  rw [← resumes] at hsame
  obtain ⟨outcome, houtcome⟩ := exists_outcome_unbounded (c := c) faultless r.key kind
  constructor
  case result =>
    refine ⟨_, hsame.1, ?_⟩
    rw [houtcome]
    exact ⟨nofun, fun h => absurd h inTime⟩
  case late => exact fun h => absurd h inTime
  case inTime => exact fun _ => hsame

/-- A pass whose answer comes by its deadline takes it. If it comes just then, no time is left to
look at anything. -/
theorem concludes_of_resume (faultless : s.cluster.faults.failures = 0)
    (le : latency.nanos ≤ c.config.timeout.nanos) (allowed : Option Nat)
    (looks : allowed = if c.config.timeout.nanos ≤ latency.nanos then some 0 else none)
    (resumes : c.step s e = s.resume c r kind allowed) : Concludes c s r kind latency e := by
  by_cases hlate : c.config.timeout.nanos ≤ latency.nanos
  · rw [if_pos hlate] at looks
    subst looks
    by_cases hunit : s.cluster.HasUnit r.key kind
    · have hout : OutOfTime c s r.key kind latency :=
        .inr ⟨Duration.eq_of_nanos (Nat.le_antisymm le hlate), hunit⟩
      obtain ⟨hresult, hreports⟩ := plan_of_hasUnit (d := c.dispatcher) hunit s.clock (lateError c r)
      simp only [State.resume, Cluster.answer_of_faultless faultless] at resumes
      constructor
      case result =>
        refine ⟨_, by rw [resumes]; rfl, ?_⟩
        rw [hresult]
        exact ⟨fun _ => hout, fun _ => rfl⟩
      case late =>
        intro _
        rw [resumes]
        exact s.vitals.applyAll_reports hreports
      case inTime => exact fun h => absurd hout h
    · refine concludes_of_resume_none faultless ?_ ?_
      · rintro (hlt | ⟨-, h⟩)
        · exact Nat.not_lt.2 le hlt
        · exact hunit h
      · rw [resumes]
        simp only [State.resume, Cluster.answer_of_faultless faultless,
          plan_of_not_hasUnit hunit]
  · rw [if_neg hlate] at looks
    subst looks
    refine concludes_of_resume_none faultless ?_ resumes
    rintro (hlt | ⟨rfl, -⟩)
    · exact Nat.not_lt.2 le hlt
    · exact hlate (Nat.le_refl _)

/-- A pass whose deadline comes before its answer is broken off. -/
theorem concludes_of_expire (late : c.config.timeout.nanos < latency.nanos)
    (expires : c.step s e = (s.leaveResult c r (.error (lateError c r)), [])) :
    Concludes c s r kind latency e := by
  constructor
  case result => exact ⟨_, by rw [expires]; rfl, ⟨fun _ => .inl late, fun _ => rfl⟩⟩
  case late =>
    intro _
    rw [expires]
    rfl
  case inTime => exact fun h => absurd (.inl late) h

/-! ## What becomes of a pass that fetches -/

/-- A pass that has a slot keeps it while others get theirs. -/
theorem mem_grantFirst {free : Nat} {passes : List Pass} {p : Pass} (slot : p.hasSlot)
    (h : p ∈ passes) : p ∈ grantFirst free passes := by
  induction passes generalizing free with
  | nil => exact absurd h List.not_mem_nil
  | cons q rest ih =>
    cases free with
    | zero => exact h
    | succ free =>
      unfold grantFirst
      split
      · rcases List.mem_cons.1 h with rfl | h
        · exact List.mem_cons_self
        · exact List.mem_cons_of_mem _ (ih h)
      · rename_i hwaits
        rcases List.mem_cons.1 h with rfl | h
        · exact absurd slot hwaits
        · exact List.mem_cons_of_mem _ (ih h)

theorem mem_endPass {p : Pass} (slot : p.hasSlot) (h : p ∈ s.passes) {serial : Nat}
    (other : p.request.serial ≠ serial) : p ∈ (s.endPass c serial).passes :=
  mem_grantFirst slot (List.mem_filter.2 ⟨h, by simpa using other⟩)

theorem mem_obeyAll {p : Pass} (slot : p.hasSlot) (h : p ∈ s.passes) (orders : List Order) :
    p ∈ (s.obeyAll c orders).1.passes := by
  induction orders generalizing s with
  | nil => exact h
  | cons o rest ih =>
    refine ih (s := (s.obey c o).1) ?_
    cases o with
    | start r => exact mem_grantFirst slot (List.mem_append_left _ h)
    | arm t => exact h
    | stop generation => exact h

/-- What can become of a pass that fetches when an event happens. -/
inductive Fares (c : Controller) (s : State) (r : Request) (kind : ObjectKind) (since ready : Nat)
    (e : Event) : Prop where
  | stays (there : ⟨r, .fetching kind since ready⟩ ∈ (c.step s e).1.passes)
  | resumes (allowed : Option Nat) (event : e = .resume r.serial allowed)
    (due : ringTime ready ≤ s.now) (does : c.step s e = s.resume c r kind allowed)
  | expires (due : ringTime (since + c.config.timeout.nanos) ≤ s.now) (early : s.now < ringTime ready)
    (does : c.step s e = (s.leaveResult c r (.error (lateError c r)), []))
  | dies (event : e = .die r.serial)
  | stops (event : e = .stopPass r.serial) (closing : s.phase = .closing)
  | breaks (broken : (c.step s e).1.phase = .broken)

variable {since ready : Nat} {j : List Entry}

theorem Regular.fares (h : Regular c s j) (there : ⟨r, .fetching kind since ready⟩ ∈ s.passes)
    (e : Event) : Fares c s r kind since ready e := by
  have hslot : (⟨r, .fetching kind since ready⟩ : Pass).hasSlot := rfl
  have hfound : s.pass? r.serial = some ⟨r, .fetching kind since ready⟩ := h.pass?_of_mem there
  cases e with
  | receive =>
    refine .stays ?_
    simp only [Controller.step]
    split
    · exact mem_obeyAll hslot (by exact there) _
    · exact there
  | complete =>
    rcases hphase : s.phase with _ | _ | _ | _ <;>
      rcases hcompletions : s.completions with _ | ⟨x, rest⟩
    case running.cons =>
      have hstep : c.step s .complete =
          State.complete c { s with completions := rest } x.request x.result := by
        simp only [Controller.step, hphase, hcompletions]
      rcases hc : s.ledger.complete c.config.backoff x.request x.result with _ | ⟨l, orders, events⟩
      · refine .breaks ?_
        simp only [hstep, State.complete, hc]
        rfl
      · refine .stays ?_
        simp only [hstep, State.complete, hc]
        exact mem_obeyAll hslot (by exact there) _
    all_goals exact .stays (by simpa only [Controller.step, hphase, hcompletions] using there)
  | hear =>
    refine .stays ?_
    simp only [Controller.step]
    split
    · simp only [State.hear]
      split
      · exact mem_obeyAll hslot (by exact there) _
      · exact there
    · exact there
  | begin serial =>
    refine .stays ?_
    simp only [Controller.step]
    split
    · rename_i r' hgranted
      obtain rfl : r'.serial = serial := serial_of_pass? hgranted
      have hne : r.serial ≠ r'.serial := by
        intro hsame
        rw [← hsame, hfound] at hgranted
        cases hgranted
      simp only [State.begin]
      split
      · exact mem_endPass hslot there hne
      · split
        · exact mem_endPass hslot there hne
        · exact List.mem_map.2 ⟨_, there, if_neg (by simpa using hne)⟩
    · exact there
  | resume serial allowed =>
    by_cases hsame : serial = r.serial
    · subst hsame
      by_cases hdue : ringTime ready ≤ s.now
      · exact .resumes allowed rfl hdue (by simp only [Controller.step, hfound, if_pos hdue])
      · exact .stays (by simpa only [Controller.step, hfound, if_neg hdue] using there)
    · refine .stays ?_
      simp only [Controller.step]
      split
      · rename_i r' kind' since' ready' hfetching
        split
        · rw [← serial_of_pass? hfetching] at hsame
          exact mem_endPass hslot there (Ne.symm hsame)
        · exact there
      · exact there
  | expire serial =>
    by_cases hsame : serial = r.serial
    · subst hsame
      by_cases hdue : ringTime (since + c.config.timeout.nanos) ≤ s.now ∧ s.now < ringTime ready
      · exact .expires hdue.1 hdue.2 (by simp only [Controller.step, hfound, if_pos hdue])
      · exact .stays (by simpa only [Controller.step, hfound, if_neg hdue] using there)
    · refine .stays ?_
      simp only [Controller.step]
      split
      · rename_i r' kind' since' ready' hfetching
        split
        · rw [← serial_of_pass? hfetching] at hsame
          exact mem_endPass hslot there (Ne.symm hsame)
        · exact there
      · exact there
  | die serial =>
    by_cases hsame : serial = r.serial
    · exact .dies (hsame ▸ rfl)
    · refine .stays ?_
      simp only [Controller.step]
      split
      · split
        · exact mem_endPass hslot there (Ne.symm hsame)
        · exact there
      · exact there
  | stopPass serial =>
    by_cases hclosing : s.phase = .closing
    · by_cases hsame : serial = r.serial
      · exact .stops (hsame ▸ rfl) hclosing
      · exact .stays (by
          simpa only [Controller.step, if_pos hclosing] using
            mem_endPass hslot there (Ne.symm hsame))
    · exact .stays (by simpa only [Controller.step, if_neg hclosing] using there)
  | _ =>
    refine .stays ?_
    simp only [Controller.step]
    repeat' split
    all_goals exact there

/-! ## What has become of a pass -/

/-- When its latency or its timeout is over, a pass can end. -/
theorem Regular.exists_concludes (h : Regular c s j)
    (there : ⟨r, .fetching kind since (since + latency.nanos)⟩ ∈ s.passes)
    (now : nanosPerMilli ∣ since) (timeout : nanosPerMilli ∣ c.config.timeout.nanos)
    (whole : nanosPerMilli ∣ latency.nanos)
    (time : s.now = since + min latency.nanos c.config.timeout.nanos) :
    ∃ e, KeepsTime c s e ∧
      (s.cluster.faults.failures = 0 → Concludes c s r kind latency e) := by
  have hready := ringTime_of_dvd (Nat.dvd_add now whole)
  have hdeadline := ringTime_of_dvd (Nat.dvd_add now timeout)
  have hfound := h.pass?_of_mem there
  by_cases hle : latency.nanos ≤ c.config.timeout.nanos
  · refine ⟨.resume r.serial (DirectRun.looksAllowed since s.now c.config.timeout), ?_, ?_⟩
    · intro r' kind' since' ready' found
      obtain ⟨-, hstage⟩ := Pass.mk.inj (Option.some.inj (found.symm.trans hfound))
      obtain ⟨-, rfl, -⟩ := Stage.fetching.inj hstage
      rfl
    · rw [Nat.min_eq_left hle] at time
      refine fun faultless => concludes_of_resume faultless hle
        (DirectRun.looksAllowed since s.now c.config.timeout) ?_ ?_
      · rw [time]
        simp only [DirectRun.looksAllowed, Nat.add_le_add_iff_left]
      · simp only [Controller.step, hfound, hready, time, if_pos (Nat.le_refl _)]
  · have hlt := Nat.not_le.1 hle
    rw [Nat.min_eq_right hlt.le] at time
    refine ⟨.expire r.serial, trivial, fun _ => concludes_of_expire hlt ?_⟩
    simp only [Controller.step, hfound, hready, hdeadline, time]
    rw [if_pos ⟨Nat.le_refl _, Nat.add_lt_add_left hlt since⟩]

/-- The state when a pass has started and events have happened since. -/
def State.begun (c : Controller) (s : State) (r : Request) (after : List Event) : State :=
  (c.run s (.begin r.serial :: after)).1

theorem begun_concat (c : Controller) (s : State) (r : Request) (after : List Event) (e : Event) :
    s.begun c r (after ++ [e]) = (c.step (s.begun c r after) e).1 := by
  rw [State.begun, ← List.cons_append, run_concat, State.begun]

/-- What has become of a pass that started in a state, with a latency, in the events since. -/
inductive Course (c : Controller) (s : State) (r : Request) (kind : ObjectKind) (latency : Duration)
    (after : List Event) : Prop where
  /-- It still fetches. It does not do so for longer than its latency or its timeout, and when one
  of them is over, it can end. -/
  | fetching
    (there : ⟨r, .fetching kind s.now (s.now + latency.nanos)⟩ ∈ (s.begun c r after).passes)
    (early : (s.begun c r after).now ≤ s.now + min latency.nanos c.config.timeout.nanos)
    (due : (s.begun c r after).now = s.now + min latency.nanos c.config.timeout.nanos →
      ∃ e, KeepsTime c (s.begun c r after) e ∧
        ((s.begun c r after).cluster.faults.failures = 0 →
          Concludes c (s.begun c r after) r kind latency e))
  /-- It has ended, when its latency or its timeout was over. -/
  | ended (mid : List Event) (e : Event) (rest : List Event) (split : after = mid ++ e :: rest)
    (time : (s.begun c r mid).now = s.now + min latency.nanos c.config.timeout.nanos)
    (concludes : (s.begun c r mid).cluster.faults.failures = 0 →
      Concludes c (s.begun c r mid) r kind latency e)
  /-- It was stopped while the controller closed. -/
  | stopped (mid rest : List Event) (split : after = mid ++ .stopPass r.serial :: rest)
    (closing : (s.begun c r mid).phase = .closing)
  /-- It broke off with the controller. -/
  | broken (phase : (s.begun c r after).phase = .broken)

section

variable {after : List Event} (now : nanosPerMilli ∣ s.now)
  (timeout : nanosPerMilli ∣ c.config.timeout.nanos) (whole : nanosPerMilli ∣ latency.nanos)

include now timeout whole

/-- A pass that starts fetches from then on. -/
theorem Course.nil (regular : Regular c s j) (granted : ⟨r, .granted⟩ ∈ s.passes)
    (needs : c.dispatcher.need r.notification = some kind)
    (told : s.now + c.config.timeout.nanos < timeLimit)
    (faults : latency = s.cluster.faults.latency.getD .zero) : Course c s r kind latency [] := by
  have hstep : s.begun c r [] = (s.begin c r).1 := by
    simp only [State.begun, run, Controller.step, regular.pass?_of_mem granted]
  simp only [State.begin, if_neg (Nat.not_le.2 told), needs] at hstep
  have hthere : ⟨r, .fetching kind s.now (s.now + latency.nanos)⟩ ∈ (s.begun c r []).passes := by
    rw [hstep, faults]
    exact List.mem_map.2 ⟨_, granted, by simp⟩
  have hnow : (s.begun c r []).now = s.now := by
    rw [hstep]
    rfl
  exact .fetching hthere (by omega)
    ((regular.step (.begin r.serial)).exists_concludes hthere now timeout whole)

/-- One event more. -/
theorem Course.concat (h : Course c s r kind latency after) (regular : Regular c (s.begun c r after) j)
    (keeps : KeepsTime c (s.begun c r after) e) : Course c s r kind latency (after ++ [e]) := by
  cases h with
  | fetching there early due =>
    have hready := ringTime_of_dvd (Nat.dvd_add now whole)
    have hdeadline := ringTime_of_dvd (Nat.dvd_add now timeout)
    rcases regular.fares there e with hthere | ⟨allowed, rfl, hdue, hdoes⟩ | ⟨hdue, hearly, hdoes⟩ |
        rfl | ⟨rfl, hclosing⟩ | hbroken
    · have hnext := regular.step e
      rw [← begun_concat] at hthere hnext
      refine .fetching hthere ?_ (hnext.exists_concludes hthere now timeout whole)
      rw [begun_concat]
      by_cases hadvance : ∃ nanos, e = .advance nanos
      · obtain ⟨nanos, rfl⟩ := hadvance
        obtain ⟨-, hall⟩ := keeps
        have hbound := hall _ _ _ _ there
        rw [hready, hdeadline] at hbound
        show _ + nanos ≤ _
        omega
      · rw [now_step fun nanos he => hadvance ⟨nanos, he⟩]
        exact early
    · rw [hready] at hdue
      have hlooks := keeps _ _ _ _ (regular.pass?_of_mem there)
      have htime : (s.begun c r after).now = s.now + latency.nanos := by omega
      refine .ended after _ [] rfl (by omega) fun faultless => ?_
      refine concludes_of_resume faultless (by omega) allowed ?_ hdoes
      rw [hlooks, htime]
      simp only [DirectRun.looksAllowed, Nat.add_le_add_iff_left]
    · rw [hdeadline] at hdue
      rw [hready] at hearly
      exact .ended after e [] rfl (by omega) fun _ => concludes_of_expire (by omega) hdoes
    · exact absurd keeps id
    · exact .stopped after [] rfl hclosing
    · exact .broken (by rw [begun_concat]; exact hbroken)
  | ended mid x rest split time concludes =>
    exact .ended mid x (rest ++ [e]) (by rw [split, List.append_assoc, List.cons_append]) time
      concludes
  | stopped mid rest split closing =>
    exact .stopped mid (rest ++ [e]) (by rw [split, List.append_assoc, List.cons_append]) closing
  | broken phase => exact .broken (by rw [begun_concat]; exact (turn_step c _ e).broken phase)

/-- The course of a pass, over all events since it started. -/
theorem course_of_begin (regular : Regular c s j) (granted : ⟨r, .granted⟩ ∈ s.passes)
    (needs : c.dispatcher.need r.notification = some kind)
    (told : s.now + c.config.timeout.nanos < timeLimit)
    (faults : latency = s.cluster.faults.latency.getD .zero)
    (virtual : OnVirtualClock c s (.begin r.serial :: after)) : Course c s r kind latency after := by
  induction after using List.reverseRecOn with
  | nil => exact .nil now timeout whole regular granted needs told faults
  | append_singleton after e ih =>
    rw [← List.cons_append, onVirtualClock_append] at virtual
    obtain ⟨hbefore, hkeeps, -⟩ := virtual
    obtain ⟨j', hregular⟩ := regular.run (.begin r.serial :: after)
    exact (ih hbefore).concat now timeout whole hregular hkeeps

end

/-! ## The law -/

/-- Which passes of a controller run out of time, on a virtual clock. -/
structure DeadlineLaw (c : Controller) (clock : Instant) : Prop where
  /-- Simulations go through events on a virtual clock. -/
  simulated : ∀ w, Simulation.Reached c clock w →
    ∃ events, Simulation.Leads (.start c clock) events w
  /-- When nothing has a turn in one, no pass fetches whose answer or whose deadline is due. -/
  punctual : ∀ w, Simulation.Reached c clock w → w.ready = [] → ∀ r kind since ready,
    ⟨r, .fetching kind since ready⟩ ∈ w.state.passes →
      w.state.now < ringTime ready ∧ w.state.now < ringTime (since + c.config.timeout.nanos)
  /-- A pass that starts leaves the tracker and the registry as they are. -/
  begins : ∀ events r kind, c.dispatcher.need r.notification = some kind →
    ⟨r, .granted⟩ ∈ (c.run (.initial clock) events).1.passes →
      (c.step (c.run (.initial clock) events).1 (.begin r.serial)).1.vitals =
        (c.run (.initial clock) events).1.vitals
  /-- Whatever happened before it started, and however long it waited for a slot: it fetches until
  its latency or its timeout since then is over, and runs out of time if the timeout was shorter, or
  no longer and there is something to look at. -/
  decided : ∀ before r after kind latency,
    OnVirtualClock c (.initial clock) (before ++ .begin r.serial :: after) →
    ⟨r, .granted⟩ ∈ (c.run (.initial clock) before).1.passes →
    c.dispatcher.need r.notification = some kind →
    (c.run (.initial clock) before).1.now + c.config.timeout.nanos < timeLimit →
    latency = (c.run (.initial clock) before).1.cluster.faults.latency.getD .zero →
    nanosPerMilli ∣ c.config.timeout.nanos → nanosPerMilli ∣ latency.nanos →
      Course c (c.run (.initial clock) before).1 r kind latency after

/-- The outer timeout and the looks between the steps of a pass decide as one. -/
theorem deadline_law (c : Controller) (clock : Instant) : DeadlineLaw c clock where
  simulated w h := h.leads.1
  punctual w h quiet r kind since ready fetching := h.ahead quiet fetching
  begins events r kind needs granted := by
    have hfound := (regular_run c clock events).pass?_of_mem granted
    simp only [Controller.step, hfound, State.begin, needs]
    split <;> rfl
  decided before r after kind latency virtual granted needs told faults timeout whole := by
    obtain ⟨hbefore, hvirtual⟩ := onVirtualClock_append.1 virtual
    exact course_of_begin (hbefore.dvd_now (Nat.dvd_zero _)) timeout whole (regular_run c clock before)
      granted needs told faults hvirtual

namespace OneSlot

/-- A controller whose passes run one at a time. -/
def controller : Controller :=
  let c := ofConfig .standard
  { c with config := { c.config with maxConcurrent := 1 } }

def timeout : Duration := controller.config.timeout

def today : Instant := .ofUnixSeconds 1792281600

def crowded : ObjectKey := ⟨"default", "web-0"⟩

def bare : ObjectKey := ⟨"default", "web-1"⟩

/-- Answers take as long as passes may, and only one of the pods has a container. -/
def changes : List ClusterChange :=
  [.putPod ⟨crowded, [⟨"app", 0, none⟩]⟩, .putPod ⟨bare, []⟩, .inject ⟨0, some timeout⟩]

/-- Both pods are asked for, and their passes wait. -/
def asked : List Event :=
  changes.map .change ++
    [.notify (.ofChange crowded), .notify (.ofChange bare), .receive, .receive]

/-- A pass takes its answer, just at its deadline. -/
def turn (serial : Nat) : List Event := [.advance timeout.nanos, .resume serial (some 0)]

/-- The simulation in which the first pod is asked for. -/
def simulated : Simulation :=
  ((changes.foldl Simulation.change (.start controller today)).tell
    (.notify (.ofChange crowded))).settle

end OneSlot

open OneSlot in
/-- Of two answers that come just at the deadline, the one with a container to look at is too late.
The time that the second pass has waited for the first one does not count. -/
theorem deadline_law_oneSlot :
    OnVirtualClock controller (.initial today)
        (asked ++ .begin 0 :: (turn 0 ++ .begin 1 :: turn 1)) ∧
      Course controller (controller.run (.initial today) asked).1 ⟨0, .ofChange crowded⟩ .pod timeout
        (turn 0 ++ .begin 1 :: turn 1) ∧
      Course controller (controller.run (.initial today) (asked ++ .begin 0 :: turn 0)).1
        ⟨1, .ofChange bare⟩ .pod timeout (turn 1) ∧
      (controller.run (.initial today)
          (asked ++ .begin 0 :: (turn 0 ++ .begin 1 :: turn 1))).1.completions.map (·.result) =
        [.error (.timeout crowded timeout), .ok .done] ∧
      ⟨⟨0, .ofChange crowded⟩, .fetching .pod 0 timeout.nanos⟩ ∈ simulated.state.passes ∧
      simulated.state.now < ringTime timeout.nanos ∧
      ∃ events, Simulation.Leads (.start controller today) events simulated := by
  have law := deadline_law controller today
  have hvirtual : OnVirtualClock controller (.initial today)
      (asked ++ .begin 0 :: (turn 0 ++ .begin 1 :: turn 1)) := by
    decide +kernel
  have hfirst := law.decided asked ⟨0, .ofChange crowded⟩ (turn 0 ++ .begin 1 :: turn 1) .pod timeout
    hvirtual (by decide +kernel) (by decide +kernel) (by decide +kernel) (by decide +kernel)
    (by decide +kernel) (by decide +kernel)
  have hsecond := law.decided (asked ++ .begin 0 :: turn 0) ⟨1, .ofChange bare⟩ (turn 1) .pod timeout
    (by rw [List.append_assoc]; exact hvirtual) (by decide +kernel) (by decide +kernel)
    (by decide +kernel) (by decide +kernel) (by decide +kernel) (by decide +kernel)
  have hreached : Simulation.Reached controller today simulated :=
    ((((Simulation.Reached.start.change _).change _).change _).ofNotify rfl).settle
  have hfetches : ⟨⟨0, .ofChange crowded⟩, .fetching .pod 0 timeout.nanos⟩ ∈
      simulated.state.passes := by
    decide +kernel
  have hquiet : simulated.ready = [] := by decide +kernel
  exact ⟨hvirtual, hfirst, hsecond, by decide +kernel, hfetches,
    (law.punctual _ hreached hquiet _ _ _ _ hfetches).1, law.simulated _ hreached⟩

end Controller

end ClusterVitals
