import ClusterVitals.Proofs.Views
import Mathlib.Data.List.Induction

/-!
# The answer that the last pass of an object had

A pass that fetches does all of its work at the time at which it takes its answer. From then until
the next pass of the object starts, nothing is done for the object: not while the end of the pass
waits to be taken, and not while the object is idle afterwards.

## Shape of the proofs

`Answered` tells where in a run a pass took its answer, and that nothing was done for its object
since. Every event keeps this of the ends that wait, and of the last end of an idle object.
-/

namespace ClusterVitals.Controller

open State

variable {c : Controller} {clock : Instant} {key : ObjectKey}

/-! ## Work is done by passes -/

/-- Nothing is done for an object. -/
def Untouched (key : ObjectKey) (es : List Entry) : Prop :=
  ∀ effect ∈ effects es, effect.subject? ≠ some key

theorem Untouched.append {j k : List Entry} (h : Untouched key j) (h' : Untouched key k) :
    Untouched key (j ++ k) := by
  intro effect hmem
  rw [effects_append] at hmem
  rcases List.mem_append.1 hmem with hmem | hmem
  · exact h effect hmem
  · exact h' effect hmem

/-- A pass that leaves its result has ended. -/
theorem notMem_requests_leaveResult (s : State) (r : Request) (result : PassResult) :
    r ∉ requests (s.leaveResult c r result).passes := by
  rw [State.leaveResult, requests_endPass]
  intro hmem
  simpa using (List.mem_filter.1 hmem).2

/-- A pass that starts does nothing yet, or forgets its pod and ends. -/
theorem effects_begin (s : State) (r : Request) :
    effects (s.begin c r).2 = [] ∨
      c.dispatcher.need r.notification = none ∧ effects (s.begin c r).2 = [.evict r.key] ∧
        r ∉ requests (s.begin c r).1.passes := by
  unfold State.begin
  split
  · exact .inl rfl
  · dsimp only
    split
    · refine .inr ⟨‹_›, effects_carryOut (c := c) s r (Dispatcher.deletionPlan r.key), ?_⟩
      exact notMem_requests_leaveResult _ r _
    · exact .inl rfl

/-- The plan of a pass that takes its answer in a state. -/
def State.planOf (c : Controller) (s : State) (r : Request) (kind : ObjectKind)
    (allowed : Option Nat) : Plan :=
  c.dispatcher.plan r.key s.clock (lateError c r) allowed (s.cluster.answer kind r.key).2.1

/-- A pass that takes its answer works on its own object. -/
theorem Orderly.subject_planOf {s : State} (h : Orderly c s) {r : Request} {kind : ObjectKind}
    {allowed : Option Nat} {effect : Effect} (hmem : effect ∈ (planOf c s r kind allowed).effects) :
    effect.subject? = none ∨ effect.subject? = some r.key := by
  cases kind with
  | pod =>
    obtain ⟨found, hanswer, hkeyed⟩ := h.keyed.answer_pod r.key
    rw [planOf, hanswer] at hmem
    exact subject_podPlan hkeyed hmem
  | secret =>
    obtain ⟨found, hanswer⟩ := s.cluster.answer_secret r.key
    rw [planOf, hanswer] at hmem
    exact subject_certificatePlan hmem

/-- What an event does to the vitals: nothing, or the work of a pass that ends with it. -/
inductive Deed (c : Controller) (s : State) (out : State × List Entry) : Prop where
  | nothing (quiet : effects out.2 = [])
  | forget {r : Request} (pass : r ∈ requests s.passes)
      (need : c.dispatcher.need r.notification = none) (does : effects out.2 = [.evict r.key])
      (ended : r ∉ requests out.1.passes)
  | answer {r : Request} {kind : ObjectKind} {since ready : Nat} (allowed : Option Nat)
      (fetching : ⟨r, .fetching kind since ready⟩ ∈ s.passes)
      (does : effects out.2 = (planOf c s r kind allowed).effects)
      (ended : r ∉ requests out.1.passes)

theorem Turn.deed {s : State} {out : State × List Entry} (turn : Turn c s out) : Deed c s out := by
  cases turn with
  | @receive n rest running first => exact .nothing (quiet_schedule (c := c) _ n).2
  | @complete e rest running first =>
    exact .nothing (quiet_complete (c := c) _ e.request e.result).2
  | @hear ring rest running first => exact .nothing (quiet_hear (c := c) _ ring).2
  | @begin r granted =>
    rcases effects_begin (c := c) s r with hnone | ⟨hneed, hone, hended⟩
    · exact .nothing hnone
    · exact .forget (List.mem_map_of_mem granted) hneed hone hended
  | @resume r kind since ready allowed fetching elapsed =>
    exact .answer allowed fetching (effects_resume s r kind allowed)
      (notMem_requests_leaveResult _ r _)
  | _ => exact .nothing rfl

/-- What an event does is done for the object of a pass that ends with it. -/
theorem Orderly.exists_worker {s : State} {out : State × List Entry} (h : Orderly c s)
    (turn : Turn c s out) {effect : Effect} (hmem : effect ∈ effects out.2)
    (hkey : effect.subject? = some key) :
    ∃ r ∈ requests s.passes, r.key = key ∧ r ∉ requests out.1.passes := by
  cases turn.deed with
  | nothing quiet =>
    rw [quiet] at hmem
    exact absurd hmem List.not_mem_nil
  | @forget r pass need does ended =>
    rw [does, List.mem_singleton] at hmem
    rw [hmem] at hkey
    exact ⟨r, pass, Option.some.inj hkey, ended⟩
  | @answer r kind since ready allowed fetching does ended =>
    rw [does] at hmem
    rcases h.subject_planOf hmem with hnone | hone
    · rw [hnone] at hkey
      cases hkey
    · rw [hone] at hkey
      exact ⟨r, List.mem_map_of_mem fetching, Option.some.inj hkey, ended⟩

/-- Where no pass of an object is under way, nothing is done for it. -/
theorem Regular.untouched {s : State} {j : List Entry} (h : Regular c s j) (e : Event)
    (none : ∀ r ∈ requests s.passes, r.key ≠ key) : Untouched key (c.step s e).2 := by
  intro effect hmem hkey
  obtain ⟨r, hr, hrkey, -⟩ := h.orderly.exists_worker (turn_step c s e) hmem hkey
  exact none r hr hrkey

/-- Nothing is done for an object whose pass has ended and waits to be taken. -/
theorem Regular.untouched_of_ended {s : State} {j : List Entry} (h : Regular c s j) (e : Event)
    {x : Completion} (hx : x ∈ s.completions) : Untouched x.request.key (c.step s e).2 :=
  h.untouched e fun _ hr hkey => h.booked.alone hr x hx hkey.symm

/-- Nothing is done for an object that is idle. -/
theorem Regular.untouched_of_idle {s : State} {j : List Entry} (h : Regular c s j) (e : Event)
    (idle : ¬s.ledger.inFlight.contains key) : Untouched key (c.step s e).2 := by
  refine h.untouched e fun r hr hkey => idle ?_
  obtain ⟨lane, hfollows, -⟩ := h.booked key
  have hrunning : r ∈ s.running key := List.mem_filter.2 ⟨hr, by simpa using hkey⟩
  rw [hfollows.books.busy, hfollows.current_of_mem (List.mem_append_right _ hrunning)]
  rfl

/-! ## Ends of passes -/

deriving instance DecidableEq for Completion

def Entry.end? : Entry → Option Completion
  | .completed r result => some ⟨r, result⟩
  | _ => none

/-- The ends of passes of an object that were taken, in order. -/
def endings (key : ObjectKey) (j : List Entry) : List Completion :=
  (j.filterMap Entry.end?).filter (·.request.key = key)

theorem endings_append (key : ObjectKey) (j k : List Entry) :
    endings key (j ++ k) = endings key j ++ endings key k := by
  rw [endings, List.filterMap_append, List.filter_append]
  rfl

theorem endings_news (key : ObjectKey) (j : List Entry) : endings key (news j) = endings key j := by
  rw [endings, endings]
  congr 1
  refine filterMap_news ?_ j
  intro e he
  cases e with
  | completed r result => cases he
  | _ => rfl

theorem finishes_eq_endings (key : ObjectKey) (j : List Entry) :
    finishes (own key j) = (endings key j).map Completion.request := by
  have hfinishes : finishes j = (j.filterMap Entry.end?).map Completion.request := by
    rw [finishes, List.map_filterMap]
    refine List.filterMap_congr ?_
    intro e _
    cases e <;> rfl
  rw [finishes_own, hfinishes, List.filter_map]
  rfl

/-- A turn takes at most one end of a pass, and one that waited. -/
theorem Booking.endings {s s' : State} {es : List Entry} (h : Booking s (s', es)) :
    endings key es = [] ∨ ∃ e ∈ s.completions, e.request.key = key ∧ endings key es = [e] := by
  rw [← endings_news]
  cases h with
  | complete e left running news =>
    rw [news]
    by_cases hkey : e.request.key = key
    · exact .inr ⟨e, left, hkey, List.filter_cons_of_pos (by simpa using hkey)⟩
    · exact .inl (List.filter_cons_of_neg (by simpa using hkey))
  | quiet news => rw [news]; exact .inl rfl
  | receive n news => rw [news]; exact .inl rfl
  | fire ring left current news => rw [news]; exact .inl rfl
  | close => exact .inl rfl

theorem completions_obeyAll (s : State) (orders : List Order) :
    (s.obeyAll c orders).1.completions = s.completions := by
  rw [obeyAll_frame]

/-- How the end of a pass comes to wait: the pass took its answer, or it did not fetch, or it was
out of time. -/
theorem Turn.completion {s : State} {out : State × List Entry} (turn : Turn c s out)
    {x : Completion} (hx : x ∈ out.1.completions) :
    x ∈ s.completions ∨
      (∃ kind since ready allowed, ⟨x.request, .fetching kind since ready⟩ ∈ s.passes ∧
        ringTime ready ≤ s.now ∧ out = s.resume c x.request kind allowed ∧
        x.result = (planOf c s x.request kind allowed).result) ∨
      c.dispatcher.need x.request.notification = none ∨
      x.result = .error (lateError c x.request) := by
  have hleft {r : Request} {result : PassResult} (hx : x ∈ s.completions ++ [⟨r, result⟩]) :
      x ∈ s.completions ∨ x = ⟨r, result⟩ := by
    rcases List.mem_append.1 hx with hx | hx
    · exact .inl hx
    · exact .inr (List.mem_singleton.1 hx)
  cases turn with
  | receive running first =>
    have hx : x ∈ (obeyAll c _ _).1.completions := hx
    rw [completions_obeyAll] at hx
    exact .inl hx
  | @complete e rest running first =>
    left
    rw [first]
    refine List.mem_cons_of_mem _ ?_
    simp only [State.complete] at hx
    split at hx
    · exact hx
    · rw [completions_obeyAll] at hx
      exact hx
  | hear running first =>
    simp only [State.hear] at hx
    split at hx
    · rw [completions_obeyAll] at hx
      exact .inl hx
    · exact .inl hx
  | begin granted =>
    simp only [State.begin] at hx
    split at hx
    · exact .inl hx
    · split at hx
      · rename_i hneed
        rcases hleft hx with hx | rfl
        · exact .inl hx
        · exact .inr (.inr (.inl hneed))
      · exact .inl hx
  | @resume r kind since ready allowed fetching elapsed =>
    rcases hleft hx with hx | rfl
    · exact .inl hx
    · exact .inr (.inl ⟨kind, since, ready, allowed, fetching, elapsed, rfl, rfl⟩)
  | expire fetching late =>
    rcases hleft hx with hx | rfl
    · exact .inl hx
    · exact .inr (.inr (.inr rfl))
  | _ => exact .inl hx

/-! ## Answers -/

/-- A pass that went well and had something to fetch. -/
def Succeeded (c : Controller) (x : Completion) : Prop :=
  c.dispatcher.need x.request.notification ≠ none ∧ ∃ outcome, x.result = .ok outcome

/-- Where in a run a pass took its answer: after some events, at one that was the work of the pass.
Nothing was done for its object in the events after that. -/
structure AnsweredAt (c : Controller) (clock : Instant) (x : Completion) (before : List Event)
    (work : Event) (after : List Event) (kind : ObjectKind) (allowed : Option Nat) : Prop where
  fetching : ∃ since ready,
    ⟨x.request, .fetching kind since ready⟩ ∈ (c.run (.initial clock) before).1.passes ∧
      ringTime ready ≤ (c.run (.initial clock) before).1.now
  works : c.step (c.run (.initial clock) before).1 work =
    (c.run (.initial clock) before).1.resume c x.request kind allowed
  result : x.result = (planOf c (c.run (.initial clock) before).1 x.request kind allowed).result
  untouched : Untouched x.request.key
    (c.run (c.step (c.run (.initial clock) before).1 work).1 after).2

/-- In a run, a pass took its answer, and nothing was done for its object since. -/
def Answered (c : Controller) (clock : Instant) (events : List Event) (x : Completion) : Prop :=
  ∃ before work after kind allowed, events = before ++ work :: after ∧
    AnsweredAt c clock x before work after kind allowed

/-- An event that does nothing for the object. -/
theorem Answered.concat {events : List Event} {x : Completion} (h : Answered c clock events x)
    {e : Event}
    (untouched : Untouched x.request.key (c.step (c.run (.initial clock) events).1 e).2) :
    Answered c clock (events ++ [e]) x := by
  obtain ⟨before, work, after, kind, allowed, rfl, hanswer⟩ := h
  refine ⟨before, work, after ++ [e], kind, allowed, by rw [List.append_assoc, List.cons_append],
    hanswer.fetching, hanswer.works, hanswer.result, ?_⟩
  rw [run_split] at untouched
  rw [run_append]
  refine hanswer.untouched.append ?_
  rw [show (c.run _ [e]).2 = (c.step _ e).2 ++ [] from rfl, List.append_nil]
  exact untouched

/-- The ends of passes of an object that waits, and the last end of an object that is idle. -/
structure LastAnswers (c : Controller) (clock : Instant) (key : ObjectKey) (events : List Event) :
    Prop where
  waiting : ∀ x ∈ (c.run (.initial clock) events).1.completions, x.request.key = key →
    Succeeded c x → Answered c clock events x
  idle : ¬(c.run (.initial clock) events).1.ledger.inFlight.contains key →
    ∀ x, (endings key (c.run (.initial clock) events).2).getLast? = some x →
      Succeeded c x → Answered c clock events x

theorem lastAnswers_nil (c : Controller) (clock : Instant) (key : ObjectKey) :
    LastAnswers c clock key [] where
  waiting x hx := absurd hx List.not_mem_nil
  idle _ x hx := by cases hx

/-- An object that becomes idle has the end of a pass taken. -/
theorem Regular.idle_of_unended {s : State} {j : List Entry} (h : Regular c s j) (e : Event)
    (idle : ¬(c.step s e).1.ledger.inFlight.contains key)
    (unended : endings key (c.step s e).2 = []) : ¬s.ledger.inFlight.contains key := by
  obtain ⟨lane, hfollows, hhistory⟩ := h.booked key
  obtain ⟨lane', hmoves, hfollows'⟩ := h.booked.step c e hfollows hhistory
  rw [hfollows'.books.busy] at idle
  rw [hfollows.books.busy]
  rcases hmoves with ⟨rfl, -⟩ | hstep
  · exact idle
  · have hfinishes : finishes (own key (c.step s e).2) = [] := by
      rw [finishes_eq_endings, unended]
      rfl
    generalize own key (c.step s e).2 = es at hstep hfinishes
    cases hstep with
    | enter => exact absurd rfl idle
    | hold => exact absurd rfl idle
    | follow => cases hfinishes
    | rest => cases hfinishes

theorem LastAnswers.concat {events : List Event} (h : LastAnswers c clock key events) (e : Event) :
    LastAnswers c clock key (events ++ [e]) := by
  have hregular := regular_run c clock events
  constructor
  case waiting =>
    intro x hx hkey hsucceeded
    rw [run_concat] at hx
    rcases (turn_step c _ e).completion hx with hx | ⟨kind, since, ready, allowed, hfetching,
        helapsed, hworks, hresult⟩ | hnone | herror
    · exact (h.waiting x hx hkey hsucceeded).concat (hregular.untouched_of_ended e hx)
    · -- the pass took its answer just now
      refine ⟨events, e, [], kind, allowed, rfl, ⟨since, ready, hfetching, helapsed⟩, hworks,
        hresult, ?_⟩
      exact fun effect hmem => absurd hmem List.not_mem_nil
    · exact absurd hnone hsucceeded.1
    · obtain ⟨outcome, houtcome⟩ := hsucceeded.2
      rw [herror] at houtcome
      cases houtcome
  case idle =>
    intro hidle x hx hsucceeded
    rw [run_concat] at hidle hx
    rw [endings_append] at hx
    rcases (booking_step c _ e).endings with hnone | ⟨y, hy, hkey, hone⟩
    · -- the object was idle before, and its last end is the same
      have hbefore := hregular.idle_of_unended e hidle hnone
      rw [hnone, List.append_nil] at hx
      have hxkey : x.request.key = key := by
        simpa using (List.mem_filter.1 (List.mem_of_getLast? hx)).2
      refine (h.idle hbefore x hx hsucceeded).concat ?_
      rw [hxkey]
      exact hregular.untouched_of_idle e hbefore
    · rw [hone, List.getLast?_concat] at hx
      obtain rfl := Option.some.inj hx
      exact (h.waiting y hy hkey hsucceeded).concat (hregular.untouched_of_ended e hy)

theorem lastAnswers (c : Controller) (clock : Instant) (key : ObjectKey) (events : List Event) :
    LastAnswers c clock key events := by
  induction events using List.reverseRecOn with
  | nil => exact lastAnswers_nil c clock key
  | append_singleton events e ih => exact ih.concat e

end ClusterVitals.Controller
