import ClusterVitals.Metrics.Exposition
import ClusterVitals.Proofs.Answers
import ClusterVitals.Proofs.Commuting
import Mathlib.Logic.Function.Basic

/-!
# The order of passes of different objects

What the passes of each object come to does not depend on how they are interleaved with those of
other objects, down to single containers and single certificates.

## Shape of the proofs

`Interleaves` takes the effects of the objects one by one, and those of each object in their order.
If an interleaving begins with an effect, this effect can be brought forward in every other
interleaving, past effects that are about other objects. So all of them come to the same.
-/

namespace ClusterVitals

/-! ## Errands -/

/-- What the work of a pass depends on: the notification, the answer to the fetch, the looks at the
deadline that find time left, and the clock at the answer. `late` is the error of a pass that is out
of time. -/
structure Errand where
  notification : Notification
  answer : Answer
  allowed : Option Nat
  clock : Instant
  late : Error

namespace Errand

def key (e : Errand) : ObjectKey := e.notification.key

/-- A pod that was found has the key under which it was fetched. -/
def Keyed (e : Errand) : Prop := ∀ pod, e.answer = .pod (.ok pod) → pod.key = e.key

end Errand

namespace Dispatcher

/-- The plan of a pass. -/
def work (d : Dispatcher) (e : Errand) : Plan :=
  match d.need e.notification with
  | none => deletionPlan e.key
  | some _ => d.plan e.key e.clock e.late e.allowed e.answer

/-- The effects of passes, one pass after the other. -/
def workAll (d : Dispatcher) (passes : List Errand) : List Effect :=
  passes.flatMap fun e => (d.work e).effects

/-- A pass with nothing to fetch forgets its pod. -/
theorem work_of_need_none {d : Dispatcher} {e : Errand} (h : d.need e.notification = none) :
    d.work e = deletionPlan e.key := by
  rw [work, h]

/-- A pass with something to fetch carries out the plan for the answer. -/
theorem work_of_need_some {d : Dispatcher} {e : Errand} {kind : ObjectKind}
    (h : d.need e.notification = some kind) :
    d.work e = d.plan e.key e.clock e.late e.allowed e.answer := by
  rw [work, h]

theorem workAll_singleton (d : Dispatcher) (e : Errand) : d.workAll [e] = (d.work e).effects :=
  List.append_nil _

/-- A pass works on its own object. -/
theorem subject_work (d : Dispatcher) {e : Errand} (keyed : e.Keyed) {effect : Effect}
    (h : effect ∈ (d.work e).effects) : effect.subject? = none ∨ effect.subject? = some e.key := by
  unfold work at h
  split at h
  · rw [List.mem_singleton.1 h]
    exact .inr rfl
  · rcases hanswer : e.answer with found | found <;> rw [hanswer] at h
    · refine subject_podPlan (fun pod hfound => keyed pod ?_) h
      rw [hanswer, hfound]
    · exact subject_certificatePlan h

/-- The work of passes of different objects is apart. -/
theorem apart_work (d : Dispatcher) {e e' : Errand} (keyed : e.Keyed) (keyed' : e'.Keyed)
    (hne : e.key ≠ e'.key) :
    ∀ effect ∈ (d.work e).effects, ∀ effect' ∈ (d.work e').effects, effect.Apart effect' :=
  fun _ h _ h' => .of_ne hne (d.subject_work keyed h) (d.subject_work keyed' h')

end Dispatcher

/-! ## Interleavings -/

/-- Effects that take what is to be done for each object in its order, with what is to be done for
other objects in between. -/
inductive Interleaves : (ObjectKey → List Effect) → List Effect → Prop where
  | done {todo : ObjectKey → List Effect} (nothing : ∀ key, todo key = []) : Interleaves todo []
  | next {todo : ObjectKey → List Effect} {key : ObjectKey} {e : Effect}
      {rest effects : List Effect} (first : todo key = e :: rest)
      (after : Interleaves (Function.update todo key rest) effects) :
      Interleaves todo (e :: effects)

/-- What is to be done for each object is about this object, or reported. -/
def Owned (todo : ObjectKey → List Effect) : Prop :=
  ∀ key, ∀ e ∈ todo key, e.subject? = none ∨ e.subject? = some key

theorem mem_of_mem_update {todo : ObjectKey → List Effect} {key other : ObjectKey} {e e' : Effect}
    {rest : List Effect} (first : todo key = e :: rest)
    (h : e' ∈ Function.update todo key rest other) : e' ∈ todo other := by
  by_cases hother : other = key
  · subst hother
    rw [Function.update_self] at h
    rw [first]
    exact List.mem_cons_of_mem _ h
  · rwa [Function.update_of_ne hother] at h

theorem Owned.update {todo : ObjectKey → List Effect} (h : Owned todo) {key : ObjectKey}
    {e : Effect} {rest : List Effect} (first : todo key = e :: rest) :
    Owned (Function.update todo key rest) :=
  fun other e' he' => h other e' (mem_of_mem_update first he')

namespace Interleaves

variable {todo : ObjectKey → List Effect} {effects : List Effect}

/-- What is to be done first for an object comes after effects for other objects only, and without
it the rest is interleaved. -/
theorem bring_forward (h : Interleaves todo effects) {key : ObjectKey} {e : Effect}
    {rest : List Effect} (first : todo key = e :: rest) :
    ∃ before after, effects = before ++ e :: after ∧
      (∀ e' ∈ before, ∃ other, key ≠ other ∧ e' ∈ todo other) ∧
      Interleaves (Function.update todo key rest) (before ++ after) := by
  induction h with
  | done nothing =>
    rw [nothing key] at first
    cases first
  | @next todo key' e' rest' effects first' after ih =>
    by_cases hkey : key = key'
    · subst hkey
      rw [first] at first'
      cases first'
      exact ⟨[], effects, rfl, fun _ h => absurd h List.not_mem_nil, after⟩
    · -- the effect for the other object stays in front
      rw [Function.update_of_ne hkey] at ih
      obtain ⟨before, later, rfl, hothers, hrest⟩ := ih first
      refine ⟨e' :: before, later, rfl, ?_, ?_⟩
      · intro e'' he''
        rcases List.mem_cons.1 he'' with rfl | he''
        · exact ⟨key', hkey, by rw [first']; exact List.mem_cons_self⟩
        · obtain ⟨other, hother, hmem⟩ := hothers e'' he''
          exact ⟨other, hother, mem_of_mem_update first' hmem⟩
      · refine @next _ key' e' rest' _ ?_ ?_
        · rwa [Function.update_of_ne (Ne.symm hkey)]
        · rwa [Function.update_comm hkey]

/-- All interleavings come to the same. -/
theorem applyAll_eq (owned : Owned todo) (h : Interleaves todo effects) {others : List Effect}
    (h' : Interleaves todo others) (v : Vitals) :
    (v.applyAll effects).1 = (v.applyAll others).1 := by
  -- on the one interleaving, whose first effect is brought forward in the other one
  induction h generalizing others v with
  | done nothing =>
    cases h' with
    | done => rfl
    | @next _ key _ _ _ first _ =>
      rw [nothing key] at first
      cases first
  | @next todo key e rest effects first after ih =>
    obtain ⟨before, after', rfl, hothers, hrest⟩ := h'.bring_forward first
    have he : e ∈ todo key := by
      rw [first]
      exact List.mem_cons_self
    have hapart : ∀ e'' ∈ [e], ∀ e' ∈ before, e''.Apart e' := by
      intro e'' he'' e' he'
      obtain rfl := List.mem_singleton.1 he''
      obtain ⟨other, hother, hmem⟩ := hothers e' he'
      exact .of_ne hother (owned key e'' he) (owned other e' hmem)
    have hcomm : ((v.apply e).1.applyAll before).1 = ((v.applyAll before).1.apply e).1 :=
      v.applyAll_comm hapart
    calc ((v.apply e).1.applyAll effects).1
      _ = ((v.apply e).1.applyAll (before ++ after')).1 := ih (owned.update first) hrest _
      _ = (((v.apply e).1.applyAll before).1.applyAll after').1 := by rw [Vitals.applyAll_append]
      _ = (((v.applyAll before).1.apply e).1.applyAll after').1 := by rw [hcomm]
      _ = (v.applyAll (before ++ e :: after')).1 := by rw [Vitals.applyAll_append]; rfl

/-- Something is done for an object before everything else. -/
theorem prepend (h : Interleaves todo effects) (key : ObjectKey) (es : List Effect) :
    Interleaves (Function.update todo key (es ++ todo key)) (es ++ effects) := by
  induction es with
  | nil => rwa [List.nil_append, Function.update_eq_self]
  | cons e rest ih =>
    refine .next (Function.update_self key _ todo) ?_
    rwa [Function.update_idem]

end Interleaves

/-! ## Passes -/

/-- Passes are listed under the keys of their objects, and the pods they find have these keys. -/
def Filed (passes : ObjectKey → List Errand) : Prop :=
  ∀ key, ∀ e ∈ passes key, e.key = key ∧ e.Keyed

/-- What passes do for each object. -/
def Dispatcher.workOf (d : Dispatcher) (passes : ObjectKey → List Errand) (key : ObjectKey) :
    List Effect :=
  d.workAll (passes key)

theorem Filed.owned {passes : ObjectKey → List Errand} (h : Filed passes) (d : Dispatcher) :
    Owned (d.workOf passes) := by
  intro key effect heffect
  obtain ⟨e, he, hwork⟩ := List.mem_flatMap.1 heffect
  obtain ⟨rfl, hkeyed⟩ := h key e he
  exact d.subject_work hkeyed hwork

/-- The passes of each object, of passes that are carried out one after the other. -/
def filed (passes : List Errand) (key : ObjectKey) : List Errand := passes.filter (·.key = key)

theorem filed_filed {passes : List Errand} (keyed : ∀ e ∈ passes, e.Keyed) :
    Filed (filed passes) := by
  intro key e he
  obtain ⟨hmem, hkey⟩ := List.mem_filter.1 he
  exact ⟨by simpa using hkey, keyed e hmem⟩

/-- Passes that are carried out one after the other are interleaved. -/
theorem interleaves_workAll (d : Dispatcher) (passes : List Errand) :
    Interleaves (d.workOf (filed passes)) (d.workAll passes) := by
  induction passes with
  | nil => exact .done fun _ => rfl
  | cons e rest ih =>
    have hfirst : d.workOf (filed (e :: rest)) = Function.update (d.workOf (filed rest)) e.key
        ((d.work e).effects ++ d.workOf (filed rest) e.key) := by
      funext key
      by_cases hkey : key = e.key
      · subst hkey
        rw [Function.update_self, Dispatcher.workOf, filed, List.filter_cons_of_pos (by simp)]
        rfl
      · rw [Function.update_of_ne hkey, Dispatcher.workOf, filed,
          List.filter_cons_of_neg (by simpa using Ne.symm hkey)]
        rfl
    rw [hfirst]
    exact ih.prepend e.key _

namespace Controller

open State

variable {c : Controller}

/-- The errand of a pass that takes its answer in a state. -/
def State.errand (c : Controller) (s : State) (r : Request) (kind : ObjectKind)
    (allowed : Option Nat) : Errand :=
  ⟨r.notification, (s.cluster.answer kind r.key).2.1, allowed, s.clock, lateError c r⟩

theorem work_errand {s : State} {r : Request} {kind : ObjectKind}
    (need : c.dispatcher.need r.notification = some kind) (allowed : Option Nat) :
    c.dispatcher.work (errand c s r kind allowed) = planOf c s r kind allowed :=
  Dispatcher.work_of_need_some need

theorem Orderly.keyed_errand {s : State} (h : Orderly c s) (r : Request) (kind : ObjectKind)
    (allowed : Option Nat) : (errand c s r kind allowed).Keyed := by
  intro pod hpod
  have hpod : (s.cluster.answer kind r.key).2.1 = .pod (.ok pod) := hpod
  cases kind with
  | pod =>
    obtain ⟨found, hanswer, hkeyed⟩ := h.keyed.answer_pod r.key
    rw [hanswer] at hpod
    exact hkeyed pod (Answer.pod.inj hpod)
  | secret =>
    obtain ⟨found, hanswer⟩ := s.cluster.answer_secret r.key
    rw [hanswer] at hpod
    cases hpod

/-- What an event does is the work of passes. -/
theorem Orderly.exists_errand {s : State} {out : State × List Entry} (h : Orderly c s)
    (turn : Turn c s out) :
    ∃ passes, (∀ e ∈ passes, e.Keyed) ∧ effects out.2 = c.dispatcher.workAll passes := by
  cases turn.deed with
  | nothing quiet => exact ⟨[], fun _ he => absurd he List.not_mem_nil, quiet⟩
  | @forget r pass need does ended =>
    -- a pass for a deletion has no answer, and its work does not depend on one
    refine ⟨[⟨r.notification, .pod (.error (.notFound r.key)), none, s.clock, lateError c r⟩],
      ?_, ?_⟩
    · intro e he pod hpod
      rw [List.mem_singleton.1 he] at hpod
      cases hpod
    · rw [does, Dispatcher.workAll_singleton, Dispatcher.work_of_need_none need]
      rfl
  | @answer r kind since ready allowed fetching does ended =>
    have hneed := h.needed _ fetching kind ⟨since, ready, rfl⟩
    refine ⟨[errand c s r kind allowed], ?_, ?_⟩
    · intro e he
      obtain rfl := List.mem_singleton.1 he
      exact h.keyed_errand r kind allowed
    · rw [does, Dispatcher.workAll_singleton, work_errand hneed]

/-- What a run does is the work of its passes. -/
theorem exists_errands (c : Controller) (clock : Instant) (events : List Event) :
    ∃ passes, (∀ e ∈ passes, e.Keyed) ∧
      effects (c.run (.initial clock) events).2 = c.dispatcher.workAll passes := by
  have hrun := run_of_nil c (fun s j => Regular c s j ∧
      ∃ passes, (∀ e ∈ passes, e.Keyed) ∧ effects j = c.dispatcher.workAll passes)
    (fun s j e ⟨hregular, passes, hkeyed, heffects⟩ => by
      obtain ⟨more, hmore, hdone⟩ := hregular.orderly.exists_errand (turn_step c s e)
      refine ⟨hregular.step e, passes ++ more, ?_, ?_⟩
      · exact List.forall_mem_append.2 ⟨hkeyed, hmore⟩
      · rw [effects_append, heffects, hdone, Dispatcher.workAll, Dispatcher.workAll,
          Dispatcher.workAll, List.flatMap_append])
    (.initial clock) events
    ⟨regular_initial c clock, [], fun _ he => absurd he List.not_mem_nil, rfl⟩
  exact hrun.2

/-- What passes of different objects come to does not depend on their order. -/
structure OrderIndependent (c : Controller) : Prop where
  /-- However the work of the passes of each object is interleaved with that of passes of other
  objects, the tracker and the registry come out the same. -/
  interleaved : ∀ passes, Filed passes → ∀ effects effects',
    Interleaves (c.dispatcher.workOf passes) effects →
    Interleaves (c.dispatcher.workOf passes) effects' →
      ∀ v : Vitals, (v.applyAll effects).1 = (v.applyAll effects').1
  /-- And so does the text in which the gauges are exposed. -/
  exposed : ∀ passes, Filed passes → ∀ effects effects',
    Interleaves (c.dispatcher.workOf passes) effects →
    Interleaves (c.dispatcher.workOf passes) effects' → ∀ (v : Vitals) namePrefix,
      Exposition.render (v.applyAll effects).1.registry.snapshot namePrefix =
        Exposition.render (v.applyAll effects').1.registry.snapshot namePrefix
  /-- A pass commutes with a pass of another object, whether they forget a pod, offer its
  containers, read certificates or remove their gauges. -/
  commute : ∀ e e' : Errand, e.Keyed → e'.Keyed → e.key ≠ e'.key → ∀ v : Vitals,
    ((v.applyAll (c.dispatcher.work e).effects).1.applyAll (c.dispatcher.work e').effects).1 =
      ((v.applyAll (c.dispatcher.work e').effects).1.applyAll (c.dispatcher.work e).effects).1
  /-- Every run interleaves the work of its passes. -/
  runs : ∀ clock events, ∃ passes, Filed passes ∧
    Interleaves (c.dispatcher.workOf passes) (effects (c.run (.initial clock) events).2)
  /-- Runs that interleave the work of the same passes end with the same tracker and registry. -/
  agree : ∀ passes, Filed passes → ∀ clock clock' events events',
    Interleaves (c.dispatcher.workOf passes) (effects (c.run (.initial clock) events).2) →
    Interleaves (c.dispatcher.workOf passes) (effects (c.run (.initial clock') events').2) →
      (c.run (.initial clock) events).1.vitals = (c.run (.initial clock') events').1.vitals

/-- For every controller, the order in which passes of different objects are carried out, down to
single containers and single certificates, makes no difference. -/
theorem order_independent (c : Controller) : OrderIndependent c where
  interleaved passes hfiled effects effects' h h' v := h.applyAll_eq (hfiled.owned _) h' v
  exposed passes hfiled effects effects' h h' v namePrefix := by
    rw [h.applyAll_eq (hfiled.owned _) h' v]
  commute e e' hkeyed hkeyed' hne v :=
    v.applyAll_comm (c.dispatcher.apart_work hkeyed hkeyed' hne)
  runs clock events := by
    obtain ⟨passes, hkeyed, heffects⟩ := exists_errands c clock events
    refine ⟨filed passes, filed_filed hkeyed, ?_⟩
    rw [heffects]
    exact interleaves_workAll c.dispatcher passes
  agree passes hfiled clock clock' events events' h h' := by
    have hvitals := applies_run (c := c) (.initial clock) events
    have hvitals' := applies_run (c := c) (.initial clock') events'
    rw [hvitals, hvitals']
    exact h.applyAll_eq (hfiled.owned _) h' .initial

end Controller

end ClusterVitals
