import ClusterVitals.Proofs.Answers
import ClusterVitals.Proofs.StaleRetries

/-!
# What is published converges

Once an object is not changed any more and a notification of its change has been taken, what is
known and published of it is up to date as soon as the object is idle and its last pass went well.
This is so whatever passes were under way at the time of the change, and however notifications were
held back, passes failed and timers rang in between.

## Shape of the proofs

The last pass of an idle object is the one of its last arrival, which came no earlier than the
notification. `lastAnswers` tells where this pass took its answer: in the part of the run in which
the object was not changed. What its work came to (`Vitals.Reflects`) was left alone from then on.
-/

namespace ClusterVitals

/-! ## The objects of a cluster -/

namespace Cluster

/-- A fetch that succeeds answers the object as it is. -/
theorem answer_of_no_failures {c : Cluster} (h : c.faults.failures = 0) (kind : ObjectKind)
    (key : ObjectKey) : (c.answer kind key).2.1 = c.lookup kind key := by
  rw [answer, h]

theorem lookup_countFetch (c : Cluster) (fetched kind : ObjectKind) (key : ObjectKey) :
    (c.countFetch fetched).lookup kind key = c.lookup kind key := by
  cases fetched <;> rfl

theorem lookup_answer (c : Cluster) (fetched kind : ObjectKind) (key other : ObjectKey) :
    (c.answer fetched other).1.lookup kind key = c.lookup kind key := by
  unfold answer
  split <;> rfl

end Cluster

namespace Controller

open State

/-- A change of a cluster concerns an object. -/
def ClusterChange.Modifies (kind : ObjectKind) (key : ObjectKey) : ClusterChange → Prop
  | .putPod pod => kind = .pod ∧ pod.key = key
  | .removePod other => kind = .pod ∧ other = key
  | .putSecret secret => kind = .secret ∧ secret.key = key
  | .removeSecret other => kind = .secret ∧ other = key
  | .inject _ => False

/-- An event changes an object. -/
def Event.Modifies (kind : ObjectKind) (key : ObjectKey) : Event → Prop
  | .change what => what.Modifies kind key
  | _ => False

/-- A change that does not concern an object leaves it. -/
theorem lookup_change (cluster : Cluster) {change : ClusterChange} {kind : ObjectKind}
    {key : ObjectKey} (h : ¬change.Modifies kind key) :
    (change.apply cluster).lookup kind key = cluster.lookup kind key := by
  cases change with
  | putPod pod =>
    cases kind with
    | secret => rfl
    | pod =>
      have hne : pod.key ≠ key := fun heq => h ⟨rfl, heq⟩
      show Answer.pod ((cluster.pods.insert pod.key pod)[key]?.elim _ _) = _
      rw [Std.ExtTreeMap.getElem?_insert, if_neg (by simpa using hne)]
      rfl
  | removePod other =>
    cases kind with
    | secret => rfl
    | pod =>
      have hne : other ≠ key := fun heq => h ⟨rfl, heq⟩
      show Answer.pod ((cluster.pods.erase other)[key]?.elim _ _) = _
      rw [Std.ExtTreeMap.getElem?_erase, if_neg (by simpa using hne)]
      rfl
  | putSecret secret =>
    cases kind with
    | pod => rfl
    | secret =>
      have hne : secret.key ≠ key := fun heq => h ⟨rfl, heq⟩
      show Answer.secret ((cluster.secrets.insert secret.key secret)[key]?.elim _ _) = _
      rw [Std.ExtTreeMap.getElem?_insert, if_neg (by simpa using hne)]
      rfl
  | removeSecret other =>
    cases kind with
    | pod => rfl
    | secret =>
      have hne : other ≠ key := fun heq => h ⟨rfl, heq⟩
      show Answer.secret ((cluster.secrets.erase other)[key]?.elim _ _) = _
      rw [Std.ExtTreeMap.getElem?_erase, if_neg (by simpa using hne)]
      rfl
  | inject faults => cases kind <;> rfl

section

variable {c : Controller} {kind : ObjectKind} {key : ObjectKey}

theorem cluster_obeyAll (s : State) (orders : List Order) :
    (s.obeyAll c orders).1.cluster = s.cluster := by
  rw [obeyAll_frame]

theorem cluster_hear (s : State) (ring : Ring) : (s.hear c ring).1.cluster = s.cluster := by
  unfold State.hear
  split
  · exact cluster_obeyAll _ _
  · rfl

theorem cluster_complete (s : State) (r : Request) (result : PassResult) :
    (s.complete c r result).1.cluster = s.cluster := by
  unfold State.complete
  split
  · rfl
  · exact cluster_obeyAll _ _

theorem lookup_begin (s : State) (r : Request) :
    (s.begin c r).1.cluster.lookup kind key = s.cluster.lookup kind key := by
  unfold State.begin
  split
  · rfl
  · dsimp only
    split
    · rfl
    · exact s.cluster.lookup_countFetch _ kind key

/-- Apart from the changes that concern it, no event changes an object. -/
theorem lookup_step (s : State) {e : Event} (h : ¬e.Modifies kind key) :
    (c.step s e).1.cluster.lookup kind key = s.cluster.lookup kind key := by
  cases e with
  | change change => exact lookup_change s.cluster h
  | receive =>
    simp only [step]
    split
    · exact congrArg (·.lookup kind key) (cluster_obeyAll _ _)
    · rfl
  | complete =>
    simp only [step]
    split
    · exact congrArg (·.lookup kind key) (cluster_complete _ _ _)
    · rfl
  | hear =>
    simp only [step]
    split
    · exact congrArg (·.lookup kind key) (cluster_hear _ _)
    · rfl
  | begin serial =>
    simp only [step]
    split
    · exact lookup_begin s _
    · rfl
  | resume serial allowed =>
    simp only [step]
    split
    · split
      · exact s.cluster.lookup_answer _ kind key _
      · rfl
    · rfl
  | ring _ | reap _ | expire _ | die _ =>
    simp only [step]
    split
    · split <;> rfl
    · rfl
  | advance nanos => rfl
  | setClock clock => rfl
  | _ => simp only [step]; split <;> rfl

theorem lookup_run (s : State) {events : List Event} (h : ∀ e ∈ events, ¬e.Modifies kind key) :
    (c.run s events).1.cluster.lookup kind key = s.cluster.lookup kind key := by
  induction events generalizing s with
  | nil => rfl
  | cons e rest ih =>
    refine (ih (c.step s e).1 fun x hx => h x (List.mem_cons_of_mem _ hx)).trans ?_
    exact lookup_step s (h e List.mem_cons_self)

end

/-! ## The last pass of an idle object -/

/-- What is fetched of an object. -/
def kindOf (c : Controller) (key : ObjectKey) : ObjectKind :=
  match c.dispatcher.route key with
  | .podRestart => .pod
  | .certificate => .secret

section

variable {c : Controller} {clock : Instant} {key : ObjectKey} {kind : ObjectKind}

theorem kindOf_of_need {n : Notification} (need : c.dispatcher.need n = some kind) :
    kind = c.kindOf n.key := by
  unfold Dispatcher.need at need
  rcases hroute : c.dispatcher.route n.key <;> rcases hkind : n.kind <;>
    simp_all [kindOf]

/-- Only a pass for the deletion of a pod has nothing to fetch. -/
theorem need_ne_none {n : Notification} (changed : c.IsPod n.key → n.kind = .changed) :
    c.dispatcher.need n ≠ none := by
  rcases hroute : c.dispatcher.route n.key with _ | _
  · simp [Dispatcher.need, hroute]
  · simp [Dispatcher.need, hroute, changed hroute]

/-- A plan for an answer to a fetch goes well only if the answer is the object as it is. -/
theorem lookup_of_ok {cluster : Cluster} {now : Instant} {late : Error} {allowed : Option Nat}
    {outcome : Outcome}
    (ok : (c.dispatcher.plan key now late allowed (cluster.answer kind key).2.1).result =
      .ok outcome) : (cluster.answer kind key).2.1 = cluster.lookup kind key := by
  rcases hfailures : cluster.faults.failures with _ | n
  · exact Cluster.answer_of_no_failures hfailures kind key
  · rw [Cluster.answer, hfailures] at ok
    cases kind <;> cases ok

/-- What is held of an object is up to date after the work of a pass that went well. -/
theorem Orderly.reflects {s : State} (h : Orderly c s) {r : Request} {allowed : Option Nat}
    {outcome : Outcome} (ok : (planOf c s r kind allowed).result = .ok outcome) :
    (s.vitals.applyAll (planOf c s r kind allowed).effects).1.Reflects r.key s.clock
      (s.cluster.lookup kind r.key) := by
  rw [← lookup_of_ok ok]
  cases kind with
  | pod =>
    obtain ⟨found, hanswer, hkeyed⟩ := h.keyed.answer_pod r.key
    rw [planOf, hanswer] at ok ⊢
    exact reflects_podPlan s.vitals s.clock hkeyed ok
  | secret =>
    obtain ⟨found, hanswer⟩ := s.cluster.answer_secret r.key
    rw [planOf, hanswer] at ok ⊢
    exact reflects_certificatePlan s.vitals ok

/-- The last arrival of an idle object is that of its last end. -/
theorem Booked.newest_of_idle {s : State} {j : List Entry} (h : Booked s j)
    (idle : ¬s.ledger.inFlight.contains key) :
    (arrivals (own key j)).getLast? = (endings key j).getLast?.map Completion.request := by
  obtain ⟨lane, hfollows, hhistory⟩ := h key
  have hcurrent : lane.current = none := by
    rw [hfollows.books.busy] at idle
    simpa using idle
  -- all that was started has ended, and nothing is held
  have hline : lane.line (own key j) = finishes (own key j) := by
    rw [Lane.line, hhistory.serialized.open_eq, hcurrent, hhistory.lined.idle hcurrent]
    exact (List.append_nil _).trans (List.append_nil _)
  rw [← hhistory.lined.newest, hline, finishes_eq_endings, List.getLast?_map]

theorem Booked.last_arrival {s : State} {j : List Entry} (h : Booked s j)
    (idle : ¬s.ledger.inFlight.contains key) {x : Completion}
    (last : (endings key j).getLast? = some x) :
    (arrivals (own key j)).getLast? = some x.request := by
  rw [h.newest_of_idle idle, last]
  rfl

/-! ## Convergence -/

def Entry.receipt? : Entry → Option Notification
  | .received n => some n
  | _ => none

/-- The notifications that were taken from the queue, in order. -/
def receipts (j : List Entry) : List Notification := j.filterMap Entry.receipt?

theorem mem_receipts {n : Notification} {es : List Entry} :
    n ∈ receipts es ↔ .received n ∈ es := by
  rw [receipts, List.mem_filterMap]
  constructor
  · rintro ⟨e, he, hn⟩
    cases e with
    | received n' =>
      obtain rfl := Option.some.inj hn
      exact he
    | _ => cases hn
  · exact fun h => ⟨.received n, h, rfl⟩

/-- The work of a pass brought what is held of its object up to date with the object, and at the end
of the run it still is. The days that are left were counted by the clock of the pass. -/
structure Converged (c : Controller) (clock : Instant) (r : Request) (before : List Event)
    (work : Event) (after : List Event) : Prop where
  fetching : ∃ since ready, ⟨r, .fetching (c.kindOf r.key) since ready⟩ ∈
    (c.run (.initial clock) before).1.passes
  works : ∃ allowed, c.step (c.run (.initial clock) before).1 work =
    (c.run (.initial clock) before).1.resume c r (c.kindOf r.key) allowed
  reflects : (c.run (.initial clock) (before ++ work :: after)).1.vitals.Reflects r.key
    (c.run (.initial clock) before).1.clock
    ((c.run (.initial clock) (before ++ work :: after)).1.cluster.lookup (c.kindOf r.key) r.key)

/-- What is taken in the event that takes a notification of the queue. -/
theorem Booking.intake_of_receipt {s s' : State} {es : List Entry} (h : Booking s (s', es))
    {n : Notification} (hn : n ∈ receipts es) : intake es = [n] := by
  have hnews : .received n ∈ news es := mem_news.2 ⟨mem_receipts.1 hn, rfl⟩
  rw [← intake_news]
  cases h with
  | receive n' news =>
    rw [news] at hnews ⊢
    obtain rfl : n = n' := by simpa using hnews
    rfl
  | quiet news => rw [news] at hnews; cases hnews
  | fire ring left current news => simp [news] at hnews
  | complete e left running news => simp [news] at hnews
  | close => cases mem_receipts.1 hn

/-- In a part of a run in which no deletion is taken from the queue, all that arrives for a pod are
changes. -/
theorem Tended.arrivals_changed {s : State} {j : List Entry} (h : Tended c key s j)
    (pod : c.IsPod key) (events : List Event)
    (undeleted : ⟨key, .deleted⟩ ∉ receipts (c.run s events).2) {r : Request}
    (hr : r ∈ arrivals (c.run s events).2) (hkey : r.key = key) : r.kind = .changed := by
  have htaken := h.regular.numbered.taken_part (h.run pod events).regular.numbered
  have hmem : r.notification ∈ intake (c.run s events).2 := by
    rw [← htaken]
    exact List.mem_map_of_mem hr
  rcases mem_intake.1 hmem with hreceived | ⟨ring, hring, hn⟩
  · rcases hkind : r.kind with _ | _
    · rfl
    · -- a deletion that is taken is the one that is not
      have hn : r.notification = ⟨key, .deleted⟩ := by
        rw [← hkey, ← hkind]
        rfl
      exact absurd (mem_receipts.2 (hn ▸ hreceived)) undeleted
  · have hchanged := h.fired_changed pod events hring (by rw [hn]; exact hkey)
    rw [hn] at hchanged
    exact hchanged

/-- The last arrival of an object came with the notification of its change or after it, and if it is
a pod, it is a change as well. -/
theorem arrived_last {first rest : List Event} {e : Event} {r : Request}
    (received : .ofChange key ∈ receipts (c.step (c.run (.initial clock) first).1 e).2)
    (undeleted : ⟨key, .deleted⟩ ∉
      receipts (c.run (c.step (c.run (.initial clock) first).1 e).1 rest).2)
    (last : (arrivals (own key (c.run (.initial clock) (first ++ e :: rest)).2)).getLast? =
      some r) :
    r ∉ arrivals (c.run (.initial clock) first).2 ∧ (c.IsPod key → r.kind = .changed) := by
  have hfirst := regular_run c clock first
  have hnumbered := (regular_run c clock (first ++ e :: rest)).numbered.increasing
  set s := (c.run (.initial clock) first).1
  set j := (c.run (.initial clock) first).2
  set es := (c.step s e).2
  set k := (c.run (c.step s e).1 rest).2
  rw [show (c.run (.initial clock) (first ++ e :: rest)).2 = j ++ (es ++ k) by
    rw [run_split, List.append_assoc]] at last hnumbered
  -- the notification arrives as one request
  obtain ⟨x, hx, hxn⟩ : ∃ x, arrivals es = [x] ∧ x.notification = .ofChange key := by
    have htaken := hfirst.numbered.taken_part (hfirst.step e).numbered
    rw [(booking_step c s e).intake_of_receipt received] at htaken
    obtain ⟨x, hx, hxn⟩ := List.map_eq_singleton_iff.1 htaken
    exact ⟨x, hx, hxn⟩
  have hr : r ∈ arrivals (es ++ k) ∧ r.key = key := by
    have hown : arrivals (own key (es ++ k)) ≠ [] := by
      have hxkey : x.key = key := by rw [Request.key, hxn]; rfl
      rw [arrivals_own, arrivals_append, hx, List.filter_append,
        List.filter_cons_of_pos (by simpa using hxkey)]
      simp
    rw [own_append, arrivals_append, List.getLast?_append_of_ne_nil _ hown, arrivals_own] at last
    obtain ⟨hmem, hkey⟩ := List.mem_filter.1 (List.mem_of_getLast? last)
    exact ⟨hmem, by simpa using hkey⟩
  constructor
  · intro hearly
    rw [arrivals_append] at hnumbered
    exact Nat.lt_irrefl _ ((List.pairwise_append.1 hnumbered).2.2 r hearly r hr.1)
  · intro hpod
    rw [arrivals_append, hx] at hr
    rcases List.mem_append.1 hr.1 with hmem | hmem
    · rw [List.mem_singleton.1 hmem, Request.kind, hxn]
      rfl
    · have htended := (tended_run hpod clock first).step hpod e
      exact htended.arrivals_changed hpod rest undeleted hmem hr.2

/-- What had not arrived after the first events of a run is under way later than at their end. -/
theorem split_of_not_arrived {first rest before after : List Event} {e work : Event} {r : Request}
    (heq : first ++ e :: rest = before ++ work :: after)
    (arrived : r ∈ arrivals (c.run (.initial clock) before).2)
    (late : r ∉ arrivals (c.run (.initial clock) first).2) :
    ∃ mid, before = first ++ e :: mid ∧ rest = mid ++ work :: after := by
  rcases List.append_eq_append_iff.1 heq with ⟨front, rfl, hrest⟩ | ⟨front, rfl, -⟩
  · rcases front with _ | ⟨e', mid⟩
    · rw [List.append_nil] at arrived
      exact absurd arrived late
    · obtain ⟨rfl, rfl⟩ := List.cons.inj hrest
      exact ⟨mid, rfl, rfl⟩
  · -- what has arrived has arrived from then on
    rw [run_append, arrivals_append] at late
    exact absurd (List.mem_append_left _ arrived) late

/-- What is held of the object of a pass that went well is up to date with the object as it was when
the pass took its answer. -/
theorem AnsweredAt.reflects {x : Completion} {before after : List Event} {work : Event}
    {allowed : Option Nat} {outcome : Outcome}
    (h : AnsweredAt c clock x before work after kind allowed) (ok : x.result = .ok outcome) :
    (c.run (.initial clock) (before ++ work :: after)).1.vitals.Reflects x.request.key
      (c.run (.initial clock) before).1.clock
      ((c.run (.initial clock) before).1.cluster.lookup kind x.request.key) := by
  have hregular := regular_run c clock before
  have hresult := h.result.symm.trans ok
  have huntouched := h.untouched
  have hworks := h.works
  rw [run_split]
  set s := (c.run (.initial clock) before).1
  have hdone : (c.step s work).1.vitals =
      (s.vitals.applyAll (planOf c s x.request kind allowed).effects).1 := by
    rw [show (c.step s work).1.vitals = _ from applies_step s work, hworks, effects_resume]
    rfl
  have hreflects := hregular.orderly.reflects hresult
  rw [← hdone] at hreflects
  -- from then on nothing was done for the object
  rw [show (c.run (c.step s work).1 after).1.vitals = _ from applies_run _ after]
  exact hreflects.congr ((c.step s work).1.vitals.agreeOn_applyAll huntouched)

/-- If a change of an object is taken from the queue at its last modification or later, and no
deletion after it, then once the object is idle and its last pass went well, what is known and
published of it is up to date. -/
theorem published_converges {first rest : List Event} {e : Event} {r : Request} {outcome : Outcome}
    (received : .ofChange key ∈ receipts (c.step (c.run (.initial clock) first).1 e).2)
    (unmodified : ∀ x ∈ rest, ¬x.Modifies (c.kindOf key) key)
    (undeleted : ⟨key, .deleted⟩ ∉
      receipts (c.run (c.step (c.run (.initial clock) first).1 e).1 rest).2)
    (idle : ¬(c.run (.initial clock) (first ++ e :: rest)).1.ledger.inFlight.contains key)
    (last : (endings key (c.run (.initial clock) (first ++ e :: rest)).2).getLast? =
      some ⟨r, .ok outcome⟩) :
    r.key = key ∧ ∃ mid work after, rest = mid ++ work :: after ∧
      Converged c clock r (first ++ e :: mid) work after := by
  have hregular := regular_run c clock (first ++ e :: rest)
  have hkey : r.key = key := by simpa using (List.mem_filter.1 (List.mem_of_getLast? last)).2
  subst hkey
  obtain ⟨hlate, hchanged⟩ :=
    arrived_last received undeleted (hregular.booked.last_arrival idle last)
  obtain ⟨before, work, after, kind, allowed, heq, hanswer⟩ :=
    (lastAnswers c clock r.key (first ++ e :: rest)).idle idle _ last
      ⟨need_ne_none hchanged, outcome, rfl⟩
  -- the last pass took its answer when the object was not changed any more
  obtain ⟨since, ready, hfetching, -⟩ := hanswer.fetching
  have hbefore := regular_run c clock before
  have hneed := hbefore.orderly.needed _ hfetching kind ⟨since, ready, rfl⟩
  obtain rfl : kind = c.kindOf r.key := kindOf_of_need hneed
  obtain ⟨mid, rfl, rfl⟩ := split_of_not_arrived heq
    (hbefore.booked.mem_arrivals (List.mem_map_of_mem hfetching)) hlate
  refine ⟨rfl, mid, work, after, rfl, ⟨since, ready, hfetching⟩, ⟨allowed, hanswer.works⟩, ?_⟩
  have hlookup : (c.run (.initial clock) (first ++ e :: mid ++ work :: after)).1.cluster.lookup
      (c.kindOf r.key) r.key =
        (c.run (.initial clock) (first ++ e :: mid)).1.cluster.lookup (c.kindOf r.key) r.key := by
    rw [run_append c _ (first ++ e :: mid)]
    exact lookup_run _ fun x hx => unmodified x (List.mem_append_right _ hx)
  rw [hlookup]
  exact hanswer.reflects rfl

end

namespace LateChange

def pod : ObjectKey := ⟨"default", "web-0"⟩

def clock : Instant := .ofUnixSeconds 1792281600

def controller : Controller := .ofConfig .standard

/-- The pod with a number of restarts. -/
def restarted (restarts : Nat) : Event :=
  .change (.putPod ⟨pod, [⟨"nginx", restarts, some ⟨"OOMKilled", 137, .ofUnixSeconds 1792281000⟩⟩]⟩)

/-- A container is restarted once more after a pass has taken its answer, and before the end of this
pass is taken. -/
def first : List Event :=
  [restarted 1, .notify (.ofChange pod), .receive, .begin 0, .resume 0 none, restarted 2,
    .notify (.ofChange pod)]

/-- The notification of the second restart is held back behind the pass, and its pass follows. -/
def rest : List Event := [.complete, .begin 1, .resume 1 none, .complete]

theorem published_converges_late :
    .ofChange pod ∈
        receipts (controller.step (controller.run (.initial clock) first).1 .receive).2 ∧
      (∀ x ∈ rest, ¬x.Modifies (controller.kindOf pod) pod) ∧
      ∃ mid work after, rest = mid ++ work :: after ∧
        Converged controller clock ⟨1, .ofChange pod⟩ (first ++ .receive :: mid) work after := by
  have hreceived : .ofChange pod ∈
      receipts (controller.step (controller.run (.initial clock) first).1 .receive).2 := by
    decide +kernel
  have hunmodified : ∀ x ∈ rest, ¬x.Modifies (controller.kindOf pod) pod := by
    simp [rest, Event.Modifies]
  have hundeleted : ⟨pod, .deleted⟩ ∉ receipts (controller.run (controller.step
      (controller.run (.initial clock) first).1 .receive).1 rest).2 := by
    decide +kernel
  have hidle : ¬(controller.run (.initial clock)
      (first ++ .receive :: rest)).1.ledger.inFlight.contains pod := by
    decide +kernel
  have hlast : (endings pod (controller.run (.initial clock)
      (first ++ .receive :: rest)).2).getLast? = some ⟨⟨1, .ofChange pod⟩, .ok .done⟩ := by
    decide +kernel
  exact ⟨hreceived, hunmodified,
    (published_converges hreceived hunmodified hundeleted hidle hlast).2⟩

end LateChange

end Controller

end ClusterVitals
