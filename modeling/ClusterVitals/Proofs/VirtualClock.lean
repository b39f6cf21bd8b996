import ClusterVitals.Controller.Simulation
import ClusterVitals.Proofs.RecheckBound
import ClusterVitals.Reconcile.Direct

/-!
# Virtual time

On a virtual clock, time goes by only up to what is due next, and nothing that happens takes time.
`OnVirtualClock` says so of the events of a run, as far as it concerns the passes that fetch. The
runs of simulations are of this kind: a simulation lets time go by only when nothing has a turn, and
then only up to the next ring.

## Shape of the proofs

Each operation of a simulation makes events happen (`Leads`), and none loses sight of a pass that
fetches: the pass has a turn ahead, or is asleep until its answer or its deadline (`InSight`). So when
nothing has a turn all of them are asleep, and the next ring is no later than theirs.
-/

namespace ClusterVitals

namespace Controller

open State

variable {c : Controller} {clock : Instant} {s : State} {events more : List Event}

/-! ## Runs on a virtual clock -/

/-- What a virtual clock asks of an event. Time goes by in whole milliseconds, and only up to the
answer and to the deadline of each pass that fetches. A pass that takes its answer looks at its
deadline in no time. No pass dies. -/
def KeepsTime (c : Controller) (s : State) : Event → Prop
  | .advance nanos => nanosPerMilli ∣ nanos ∧
    ∀ r kind since ready, ⟨r, .fetching kind since ready⟩ ∈ s.passes →
      s.now + nanos ≤ ringTime ready ∧ s.now + nanos ≤ ringTime (since + c.config.timeout.nanos)
  | .resume serial allowed =>
    ∀ r kind since ready, s.pass? serial = some ⟨r, .fetching kind since ready⟩ →
      allowed = DirectRun.looksAllowed since s.now c.config.timeout
  | .die _ => False
  | _ => True

/-- Events on a virtual clock, from a state on. -/
def OnVirtualClock (c : Controller) : State → List Event → Prop
  | _, [] => True
  | s, e :: rest => KeepsTime c s e ∧ OnVirtualClock c (c.step s e).1 rest

/-- When a pass that fetches started, and when its answer comes. -/
def Pass.fetchTimes? (p : Pass) : Option (Nat × Nat) :=
  match p.stage with
  | .fetching _ since ready => some (since, ready)
  | _ => none

/-- What is asked of the times of passes that fetch is asked of the passes one by one. -/
theorem Pass.forall_fetchTimes_iff {there : Pass → Prop} {P : Nat × Nat → Prop} :
    (∀ p, there p → ∀ times ∈ p.fetchTimes?, P times) ↔
      ∀ r kind since ready, there ⟨r, .fetching kind since ready⟩ → P (since, ready) := by
  constructor
  · exact fun h r kind since ready hp => h _ hp (since, ready) rfl
  · rintro h ⟨r, _ | _ | ⟨kind, since, ready⟩⟩ hp times ⟨⟩
    exact h r kind since ready hp

instance (c : Controller) (s : State) : DecidablePred (KeepsTime c s)
  | .advance nanos =>
    decidable_of_iff (nanosPerMilli ∣ nanos ∧ ∀ p ∈ s.passes, ∀ times ∈ p.fetchTimes?,
        s.now + nanos ≤ ringTime times.2 ∧
          s.now + nanos ≤ ringTime (times.1 + c.config.timeout.nanos))
      (and_congr_right' Pass.forall_fetchTimes_iff)
  | .resume serial allowed =>
    decidable_of_iff (∀ p ∈ s.pass? serial, ∀ times ∈ p.fetchTimes?,
        allowed = DirectRun.looksAllowed times.1 s.now c.config.timeout)
      Pass.forall_fetchTimes_iff
  | .die _ => isFalse id
  | .notify _ | .receive | .complete | .hear | .ring _ | .reap _ | .begin _ | .expire _
  | .setClock _ | .change _ | .close | .stopTimer _ | .stopPass _ | .finish => isTrue trivial

instance decidableOnVirtualClock (c : Controller) :
    ∀ (s : State) (events : List Event), Decidable (OnVirtualClock c s events)
  | _, [] => isTrue trivial
  | s, e :: rest =>
    have := decidableOnVirtualClock c (c.step s e).1 rest
    inferInstanceAs (Decidable (KeepsTime c s e ∧ OnVirtualClock c (c.step s e).1 rest))

theorem onVirtualClock_append : OnVirtualClock c s (events ++ more) ↔
    OnVirtualClock c s events ∧ OnVirtualClock c (c.run s events).1 more := by
  induction events generalizing s with
  | nil => exact ⟨fun h => ⟨trivial, h⟩, And.right⟩
  | cons e rest ih => exact (and_congr_right' ih).trans and_assoc.symm

theorem OnVirtualClock.dvd_now (h : OnVirtualClock c s events) (start : nanosPerMilli ∣ s.now) :
    nanosPerMilli ∣ (c.run s events).1.now := by
  induction events generalizing s with
  | nil => exact start
  | cons e rest ih =>
    refine ih (s := (c.step s e).1) h.2 ?_
    by_cases hadvance : ∃ nanos, e = .advance nanos
    · obtain ⟨nanos, rfl⟩ := hadvance
      exact Nat.dvd_add start h.1.1
    · rw [now_step fun nanos he => hadvance ⟨nanos, he⟩]
      exact start

/-- Events keep to what holds on every run. -/
theorem Regular.run {j : List Entry} (h : Regular c s j) (events : List Event) :
    ∃ j, Regular c (c.run s events).1 j :=
  run_invariant c (fun s => ∃ j, Regular c s j) (fun _ e ⟨_, hj⟩ => ⟨_, hj.step e⟩) s events ⟨j, h⟩

/-! ## Where passes fetch -/

variable {e : Event} {p : Pass} {kind : ObjectKind}

/-- Only a pass that starts comes to fetch. -/
theorem mem_of_mem_step (fetches : p.Fetches kind) (other : ∀ serial, e ≠ .begin serial)
    (h : p ∈ (c.step s e).1.passes) : p ∈ s.passes := by
  cases e with
  | begin serial => exact absurd rfl (other serial)
  | receive =>
    simp only [step] at h
    split at h
    · have h : p ∈ (obeyAll c _ _).1.passes := h
      have hmem := mem_of_mem_obeyAll fetches h
      exact hmem
    · exact h
  | complete =>
    simp only [step] at h
    split at h
    · simp only [State.complete] at h
      split at h
      · exact absurd h List.not_mem_nil
      · have hmem := mem_of_mem_obeyAll fetches h
        exact hmem
    · exact h
  | hear =>
    simp only [step] at h
    split at h
    · simp only [State.hear] at h
      split at h
      · have hmem := mem_of_mem_obeyAll fetches h
        exact hmem
      · exact h
    · exact h
  | _ =>
    simp only [step] at h
    repeat' split at h
    all_goals first | exact h | exact mem_of_mem_endPass fetches h

theorem serial_of_pass? {serial : Nat} {p : Pass} (found : s.pass? serial = some p) :
    p.request.serial = serial := by
  simpa using List.find?_some found

theorem mem_of_mem_begin {serial : Nat} (fetches : p.Fetches kind)
    (h : p ∈ (c.step s (.begin serial)).1.passes) : p ∈ s.passes ∨ p.request.serial = serial := by
  simp only [step] at h
  split at h
  · rename_i r hgranted
    have hserial : r.serial = serial := serial_of_pass? hgranted
    simp only [State.begin] at h
    split at h
    · exact .inl (mem_of_mem_endPass fetches h)
    · split at h
      · exact .inl (mem_of_mem_endPass fetches h)
      · obtain ⟨q, hq, rfl⟩ := List.mem_map.1 h
        split
        · rename_i hsame
          exact .inr ((beq_iff_eq.1 hsame).trans hserial)
        · exact .inl hq
  · exact .inl h

/-- A pass that ended does not fetch any more. -/
theorem serial_ne_of_mem_endPass {serial : Nat} (fetches : p.Fetches kind)
    (h : p ∈ (s.endPass c serial).passes) : p.request.serial ≠ serial := by
  simpa using (List.mem_filter.1 (mem_of_mem_grantFirst fetches h)).2

end Controller

namespace Simulation

open Controller

variable {w w' w'' : Simulation} {events more : List Event}

/-! ## What an operation does -/

/-- Events lead from one simulation to another, as a virtual clock asks. -/
structure Leads (w : Simulation) (events : List Event) (w' : Simulation) : Prop where
  controller : w'.controller = w.controller
  state : w'.state = (w.controller.run w.state events).1
  log : w'.log = ((w.controller.run w.state events).2.filterMap Entry.log?).reverse ++ w.log
  virtual : OnVirtualClock w.controller w.state events

theorem Leads.trans (first : Leads w events w') (second : Leads w' more w'') :
    Leads w (events ++ more) w'' where
  controller := second.controller.trans first.controller
  state := by rw [run_append, second.state, first.controller, first.state]
  log := by
    rw [run_append, List.filterMap_append, List.reverse_append, List.append_assoc, second.log,
      first.log, first.controller, first.state]
  virtual := by
    have hmore := second.virtual
    rw [first.controller, first.state] at hmore
    exact onVirtualClock_append.2 ⟨first.virtual, hmore⟩

/-- A pass has a turn ahead, or is asleep; then, if it fetches, its answer and its deadline are
ahead. -/
def InSight (w : Simulation) (p : Pass) : Prop :=
  .pass p.request.serial ∈ w.ready ∨
    .pass p.request.serial ∈ w.asleep ∧ ∀ kind since ready, p.stage = .fetching kind since ready →
      w.state.now < ringTime ready ∧
        w.state.now < ringTime (since + w.controller.config.timeout.nanos)

/-- Every pass that fetches is in sight, but for one at most. -/
def Attended (w : Simulation) (but : Option Nat) : Prop :=
  ∀ p ∈ w.state.passes, ∀ kind, p.Fetches kind → some p.request.serial ≠ but → w.InSight p

/-- An operation only gives turns, or notes what is asleep, and loses sight of no pass. -/
structure Rouses (w w' : Simulation) : Prop where
  controller : w'.controller = w.controller
  state : w'.state = w.state
  log : w'.log = w.log
  inSight : ∀ p, w.InSight p → w'.InSight p

theorem Rouses.attended (h : Rouses w w') (but : Option Nat) (attended : w.Attended but) :
    w'.Attended but := fun p hp kind fetches hbut =>
  h.inSight p (attended p (h.state ▸ hp) kind fetches hbut)

theorem Rouses.refl (w : Simulation) : Rouses w w := ⟨rfl, rfl, rfl, fun _ h => h⟩

theorem Rouses.trans (first : Rouses w w') (second : Rouses w' w'') : Rouses w w'' where
  controller := second.controller.trans first.controller
  state := second.state.trans first.state
  log := second.log.trans first.log
  inSight p h := second.inSight p (first.inSight p h)

theorem Rouses.foldl {α : Type} {f : Simulation → α → Simulation}
    (step : ∀ w x, Rouses w (f w x)) (xs : List α) : Rouses w (xs.foldl f w) := by
  induction xs generalizing w with
  | nil => exact .refl w
  | cons x xs ih => exact (step w x).trans ih

/-- An operation makes events happen, and loses sight of no pass that fetches. -/
structure Carries (w w' : Simulation) : Prop where
  leads : ∃ events, Leads w events w'
  attended : ∀ but, w.Attended but → w'.Attended but

theorem Rouses.leads (h : Rouses w w') : Leads w [] w' where
  controller := h.controller
  state := h.state
  log := h.log
  virtual := trivial

theorem Rouses.carries (h : Rouses w w') : Carries w w' := ⟨⟨[], h.leads⟩, h.attended⟩

theorem Carries.refl (w : Simulation) : Carries w w := (Rouses.refl w).carries

theorem Carries.trans (first : Carries w w') (second : Carries w' w'') : Carries w w'' where
  leads := by
    obtain ⟨events, hfirst⟩ := first.leads
    obtain ⟨more, hsecond⟩ := second.leads
    exact ⟨events ++ more, hfirst.trans hsecond⟩
  attended but h := second.attended but (first.attended but h)

theorem Carries.foldl {α : Type} {f : Simulation → α → Simulation}
    (step : ∀ w x, Carries w (f w x)) (xs : List α) : Carries w (xs.foldl f w) := by
  induction xs generalizing w with
  | nil => exact .refl w
  | cons x xs ih => exact (step w x).trans ih

/-! ## Turns ahead -/

theorem mem_ready_wake (w : Simulation) (task : Task) : task ∈ (w.wake task).ready := by
  unfold wake
  split
  · rename_i h
    exact List.contains_iff_mem.1 h
  · exact List.mem_append_right _ (List.mem_singleton_self task)

/-- Turns that are ahead stay so while others are given. -/
theorem mem_ready_of_wake {task other : Task} (h : task ∈ w.ready) :
    task ∈ (w.wake other).ready := by
  unfold wake
  split
  · exact h
  · exact List.mem_append_left _ h

theorem mem_ready_foldl_wake {task : Task} {tasks : List Task} (h : task ∈ w.ready ∨ task ∈ tasks) :
    task ∈ (tasks.foldl wake w).ready := by
  induction tasks generalizing w with
  | nil => exact h.resolve_right List.not_mem_nil
  | cons first rest ih =>
    refine ih (w := w.wake first) ?_
    rcases h with h | h
    · exact .inl (mem_ready_of_wake h)
    · rcases List.mem_cons.1 h with rfl | h
      · exact .inl (mem_ready_wake w task)
      · exact .inr h

theorem rouses_wake (w : Simulation) (task : Task) : Rouses w (w.wake task) := by
  unfold wake
  split
  · exact .refl w
  · refine ⟨rfl, rfl, rfl, fun p h => ?_⟩
    by_cases htask : .pass p.request.serial = task
    · exact .inl (List.mem_append_right _ (List.mem_singleton.2 htask))
    · refine h.imp (List.mem_append_left _) (And.imp_left fun hasleep => ?_)
      exact List.mem_filter.2 ⟨hasleep, by simpa using htask⟩

theorem mem_asleep_rest (w : Simulation) (task : Task) : task ∈ (w.rest task).asleep := by
  unfold rest
  split
  · rename_i h
    exact List.contains_iff_mem.1 h
  · exact List.mem_append_right _ (List.mem_singleton_self task)

theorem rouses_rest (w : Simulation) (task : Task) : Rouses w (w.rest task) := by
  unfold rest
  split
  · exact .refl w
  · exact ⟨rfl, rfl, rfl, fun p h => h.imp_right (And.imp_left (List.mem_append_left _))⟩

theorem rouses_wakeFor (w : Simulation) (entry : Entry) : Rouses w (w.wakeFor entry) := by
  cases entry with
  | started r => exact rouses_wake w _
  | armed t => exact rouses_wake w _
  | replaced generation => exact rouses_wake w _
  | _ => exact .refl w

theorem rouses_wakeGranted (w : Simulation) : Rouses w w.wakeGranted := by
  refine .foldl (fun w p => ?_) _
  split
  · exact rouses_wake w _
  · exact .refl w

/-! ## Events -/

/-- An event leads from before to after it, whatever turns it gives. -/
theorem leads_happen {e : Event} (keeps : KeepsTime w.controller w.state e) :
    Leads w [e] (w.happen e) := by
  have hevent : Leads w [e] { w with
      state := (w.controller.step w.state e).1
      log := ((w.controller.step w.state e).2.filterMap Entry.log?).reverse ++ w.log } :=
    ⟨rfl, rfl, by simp only [run, List.append_nil], keeps, trivial⟩
  exact hevent.trans (Rouses.foldl rouses_wakeFor _).leads

/-- An event gives turns, and takes none. -/
theorem attended_happen {e : Event} {but but' : Option Nat} (h : w.Attended but)
    (other : ∀ nanos, e ≠ .advance nanos)
    (known : ∀ p ∈ (w.controller.step w.state e).1.passes, ∀ kind, p.Fetches kind →
      some p.request.serial ≠ but' → p ∈ w.state.passes ∧ some p.request.serial ≠ but) :
    (w.happen e).Attended but' := by
  refine (Rouses.foldl rouses_wakeFor _).attended but' fun p hp kind fetches hbut => ?_
  obtain ⟨hmem, hbefore⟩ := known p hp kind fetches hbut
  refine (h p hmem kind fetches hbefore).imp_right (And.imp_right fun hahead => ?_)
  rwa [← now_step other] at hahead

/-- What an event of a task does beside the event. -/
theorem rouses_tell (w : Simulation) (e : Event) : Rouses (w.happen e) (w.tell e) :=
  (rouses_wake _ _).trans (rouses_wakeGranted _)

/-- An event that a virtual clock asks nothing of, and that starts no pass. -/
def isFree : Event → Bool
  | .advance _ | .resume _ _ | .begin _ | .die _ => false
  | _ => true

theorem keepsTime_of_isFree {e : Event} (free : isFree e) : KeepsTime w.controller w.state e := by
  cases e <;> trivial

theorem carries_happen (w : Simulation) (e : Event) (free : isFree e) : Carries w (w.happen e) where
  leads := ⟨[e], leads_happen (keepsTime_of_isFree free)⟩
  attended but h := by
    have hbegin : ∀ serial, e ≠ .begin serial := by
      rintro serial rfl
      cases free
    have hadvance : ∀ nanos, e ≠ .advance nanos := by
      rintro nanos rfl
      cases free
    exact attended_happen h hadvance fun p hp kind fetches hbut =>
      ⟨mem_of_mem_step fetches hbegin hp, hbut⟩

theorem carries_tell (w : Simulation) (e : Event) (free : isFree e) : Carries w (w.tell e) :=
  (carries_happen w e free).trans (rouses_tell w e).carries

/-! ## Turns -/

theorem carries_takeMail (w : Simulation) (steps : Nat) : Carries w (w.takeMail steps) := by
  induction steps generalizing w with
  | zero => exact .refl w
  | succ steps ih =>
    unfold takeMail
    split
    · exact (carries_happen w .complete rfl).trans (ih _)
    split
    · exact (carries_happen w .hear rfl).trans (ih _)
    split
    · exact (carries_happen w .receive rfl).trans (ih _)
    · exact .refl w

theorem carries_stopTimers (w : Simulation) : Carries w w.stopTimers :=
  .foldl (fun w (t : Sleeper) => (carries_happen w (.stopTimer t.timer.generation) rfl).trans
    (rouses_wake _ _).carries) _

theorem carries_stopPasses (w : Simulation) : Carries w w.stopPasses := by
  have hpasses : Carries w
      (w.state.passes.foldl (fun w p => w.happen (.stopPass p.request.serial)) w) :=
    .foldl (fun w p => carries_happen w _ rfl) _
  exact hpasses.trans (carries_happen _ .finish rfl)

theorem carries_goOnClosing (w : Simulation) : Carries w w.goOnClosing := by
  unfold goOnClosing
  split
  · exact carries_stopPasses w
  · exact .refl w

theorem carries_controllerTurn (w : Simulation) : Carries w w.controllerTurn := by
  unfold controllerTurn
  split
  · split
    · exact (carries_happen w .close rfl).trans
        ((carries_stopTimers _).trans (carries_goOnClosing _))
    · exact (carries_takeMail w _).trans (rouses_wakeGranted _).carries
  · exact carries_goOnClosing w
  · exact .refl w

theorem carries_timerTurn (w : Simulation) (generation : Nat) :
    Carries w (w.timerTurn generation) := by
  unfold timerTurn
  split
  · split
    · exact carries_tell w (.reap generation) rfl
    split
    · exact carries_tell w (.ring generation) rfl
    · exact (rouses_rest w _).carries
  · exact .refl w

/-! ## Turns of passes -/

/-- A pass has its turn, and is in sight again after it. -/
structure Serves (serial : Nat) (w w' : Simulation) : Prop where
  leads : ∃ events, Leads w events w'
  attended : w.Attended (some serial) → w'.Attended none

/-- An event that ends the pass. -/
theorem serves_tell {serial : Nat} {e : Event} (keeps : KeepsTime w.controller w.state e)
    (other : ∀ nanos, e ≠ .advance nanos)
    (ends : (w.controller.step w.state e).1.passes =
      (w.state.endPass w.controller serial).passes) : Serves serial w (w.tell e) where
  leads := ⟨[e] ++ [], (leads_happen keeps).trans (rouses_tell w e).leads⟩
  attended h := by
    refine (rouses_tell w e).attended none (attended_happen h other fun p hp kind fetches _ => ?_)
    rw [ends] at hp
    exact ⟨mem_of_mem_endPass fetches hp, fun heq =>
      serial_ne_of_mem_endPass fetches hp (Option.some.inj heq)⟩

/-- A pass that fetches takes its answer, is broken off, or falls asleep. -/
theorem serves_fetchTurn {serial since ready : Nat} {r : Request} {kind : ObjectKind}
    (regular : ∃ j, Regular w.controller w.state j)
    (found : w.state.pass? serial = some ⟨r, .fetching kind since ready⟩) :
    Serves serial w (w.fetchTurn serial since ready) := by
  obtain rfl : r.serial = serial := serial_of_pass? found
  unfold fetchTurn
  dsimp only
  split
  · rename_i hdue
    refine serves_tell ?_ (fun _ => Event.noConfusion) ?_
    · intro r' kind' since' ready' found'
      obtain ⟨-, hstage⟩ := Pass.mk.inj (Option.some.inj (found'.symm.trans found))
      obtain ⟨-, rfl, -⟩ := Stage.fetching.inj hstage
      rfl
    · simp only [step, found]
      rw [if_pos hdue]
      rfl
  split
  · rename_i hearly hdue
    refine serves_tell trivial (fun _ => Event.noConfusion) ?_
    simp only [step, found]
    rw [if_pos ⟨hdue, Nat.not_le.1 hearly⟩]
    rfl
  · rename_i hanswer hdeadline
    have hrest := rouses_rest w (.pass r.serial)
    refine ⟨⟨[], hrest.leads⟩, fun h p hp kind' fetches _ => ?_⟩
    rw [hrest.state] at hp
    by_cases hsame : p.request.serial = r.serial
    · obtain ⟨j, regular⟩ := regular
      have hfound := regular.pass?_of_mem hp
      rw [hsame, found] at hfound
      obtain rfl := Option.some.inj hfound
      refine .inr ⟨mem_asleep_rest w _, fun _ _ _ hstage => ?_⟩
      obtain ⟨-, rfl, rfl⟩ := Stage.fetching.inj hstage
      rw [hrest.state, hrest.controller]
      exact ⟨Nat.not_le.1 hanswer, Nat.not_le.1 hdeadline⟩
    · exact hrest.inSight p (h p hp kind' fetches fun heq => hsame (Option.some.inj heq))

/-- A pass that does not fetch need not be in sight. -/
theorem Attended.none_of_pass? {serial : Nat} (h : w.Attended (some serial))
    (regular : ∃ j, Regular w.controller w.state j)
    (other : ∀ r kind since ready, w.state.pass? serial ≠ some ⟨r, .fetching kind since ready⟩) :
    w.Attended none := by
  obtain ⟨j, regular⟩ := regular
  intro p hp kind fetches _
  refine h p hp kind fetches fun heq => ?_
  have hfound := regular.pass?_of_mem hp
  rw [Option.some.inj heq] at hfound
  obtain ⟨r, stage⟩ := p
  obtain ⟨since, ready, rfl⟩ := fetches
  exact other r kind since ready hfound

theorem serves_of_rouses {serial : Nat} (regular : ∃ j, Regular w.controller w.state j)
    (other : ∀ r kind since ready, w.state.pass? serial ≠ some ⟨r, .fetching kind since ready⟩)
    (h : Rouses w w') : Serves serial w w' where
  leads := ⟨[], h.leads⟩
  attended attended := h.attended none (attended.none_of_pass? regular other)

theorem serves_afterBegin (regular : ∃ j, Regular w.controller w.state j) (serial : Nat) :
    Serves serial w (w.afterBegin serial) := by
  unfold afterBegin
  split
  · rename_i kind since ready hstage
    obtain ⟨⟨r, stage⟩, hfound, rfl⟩ := Option.map_eq_some_iff.1 hstage
    exact serves_fetchTurn regular hfound
  · rename_i hstage
    refine serves_of_rouses regular (fun r kind since ready hfound => ?_)
      ((rouses_wake _ _).trans (rouses_wakeGranted _))
    exact hstage kind since ready (by rw [hfound]; rfl)

theorem Leads.regular (h : Leads w events w') (regular : ∃ j, Regular w.controller w.state j) :
    ∃ j, Regular w'.controller w'.state j := by
  obtain ⟨j, regular⟩ := regular
  rw [h.controller, h.state]
  exact regular.run events

theorem serves_passTurn (regular : ∃ j, Regular w.controller w.state j) (serial : Nat) :
    Serves serial w (w.passTurn serial) := by
  unfold passTurn
  split
  · have hbegin : Leads w [.begin serial] (w.happen (.begin serial)) := leads_happen trivial
    have hserves := serves_afterBegin (hbegin.regular regular) serial
    obtain ⟨events, hevents⟩ := hserves.leads
    refine ⟨⟨_, hbegin.trans hevents⟩, fun h => hserves.attended
      (attended_happen h (fun _ => Event.noConfusion) ?_)⟩
    intro p hp kind fetches hbut
    rcases mem_of_mem_begin fetches hp with hmem | hserial
    · exact ⟨hmem, hbut⟩
    · exact absurd (congrArg some hserial) hbut
  · rename_i kind since ready hstage
    obtain ⟨⟨r, stage⟩, hfound, rfl⟩ := Option.map_eq_some_iff.1 hstage
    exact serves_fetchTurn regular hfound
  · rename_i hgranted hfetching
    refine serves_of_rouses regular (fun r kind since ready hfound => ?_) (.refl w)
    exact hfetching kind since ready (by rw [hfound]; rfl)

/-! ## Reached simulations -/

/-- What holds of a simulation whenever a turn has ended. -/
structure Steady (w : Simulation) : Prop where
  attended : w.Attended none
  regular : ∃ j, Regular w.controller w.state j
  whole : nanosPerMilli ∣ w.state.now

/-- What an operation must do for a run to go on. -/
def GoesOn (w w' : Simulation) : Prop := (∃ events, Leads w events w') ∧ w'.Attended none

theorem Steady.step (h : Steady w) (step : GoesOn w w') : Steady w' := by
  obtain ⟨⟨events, hleads⟩, hattended⟩ := step
  refine ⟨hattended, hleads.regular h.regular, ?_⟩
  rw [hleads.state]
  exact hleads.virtual.dvd_now h.whole

theorem Steady.carries (h : Steady w) (carries : Carries w w') : GoesOn w w' :=
  ⟨carries.leads, carries.attended none h.attended⟩

/-- The task that has its turn is not asleep, and has no turn ahead. -/
theorem Steady.turn (h : Steady w) {task : Task} {rest : List Task} (next : w.ready = task :: rest) :
    GoesOn w ({ w with ready := rest }.turn task) := by
  have hpop : Leads w [] { w with ready := rest } := ⟨rfl, rfl, rfl, trivial⟩
  have hothers : ∀ but, (∀ serial, task = .pass serial → but = some serial) →
      ({ w with ready := rest } : Simulation).Attended but := by
    intro but hbut p hp kind fetches hne
    refine Or.imp_left (fun hready => ?_) (h.attended p hp kind fetches nofun)
    rw [next] at hready
    refine (List.mem_cons.1 hready).resolve_left fun htask => ?_
    exact hne (hbut _ htask.symm).symm
  cases task with
  | controller =>
    have hcarries := carries_controllerTurn { w with ready := rest }
    exact ⟨hcarries.leads.imp fun _ => hpop.trans, hcarries.attended none (hothers none nofun)⟩
  | timer generation =>
    have hcarries := carries_timerTurn { w with ready := rest } generation
    exact ⟨hcarries.leads.imp fun _ => hpop.trans, hcarries.attended none (hothers none nofun)⟩
  | pass serial =>
    have hserves := serves_passTurn (hpop.regular h.regular) serial
    refine ⟨hserves.leads.imp fun _ => hpop.trans, hserves.attended (hothers _ fun other hother => ?_)⟩
    rw [Task.pass.inj hother]

/-- The next ring is no later than that of any task that is asleep. -/
theorem le_of_mem_ringTimes {time ring : Nat} {task : Task}
    (due : ∀ next, w.nextRing? = some next → time ≤ next) (asleep : task ∈ w.asleep)
    (rings : ring ∈ w.ringTimes task) : time ≤ ring := by
  have hmem : ring ∈ w.asleep.flatMap w.ringTimes := List.mem_flatMap.2 ⟨task, asleep, rings⟩
  obtain ⟨next, hnext⟩ := Option.isSome_iff_exists.1 (List.isSome_min?_of_mem hmem)
  exact Nat.le_trans (due next hnext) ((List.min?_eq_some_iff.1 hnext).2 ring hmem)

/-- While nothing has a turn, a pass that fetches is asleep until its answer or its deadline. -/
theorem Steady.asleep (h : Steady w) (quiet : w.ready = []) {r : Request} {kind : ObjectKind}
    {since ready : Nat} (fetching : ⟨r, .fetching kind since ready⟩ ∈ w.state.passes) :
    .pass r.serial ∈ w.asleep ∧
      w.ringTimes (.pass r.serial) =
        [ringTime ready, ringTime (since + w.controller.config.timeout.nanos)] ∧
      ∀ ring ∈ w.ringTimes (.pass r.serial), w.state.now < ring := by
  obtain ⟨hasleep, hahead⟩ := (h.attended _ fetching kind ⟨since, ready, rfl⟩ nofun).resolve_left
    (quiet ▸ List.not_mem_nil)
  obtain ⟨j, regular⟩ := h.regular
  have hrings : w.ringTimes (.pass r.serial) =
      [ringTime ready, ringTime (since + w.controller.config.timeout.nanos)] := by
    simp only [ringTimes, regular.pass?_of_mem fetching, Option.map]
  obtain ⟨hanswer, hdeadline⟩ := hahead kind since ready rfl
  refine ⟨hasleep, hrings, ?_⟩
  rw [hrings]
  exact List.forall_mem_cons.2 ⟨hanswer, List.forall_mem_singleton.2 hdeadline⟩

/-- So the next ring is not past its own, and at its own it has a turn again. -/
theorem Steady.moveTo (h : Steady w) {time : Nat} (quiet : w.ready = [])
    (whole : nanosPerMilli ∣ time) (onward : w.state.now ≤ time)
    (due : ∀ next, w.nextRing? = some next → time ≤ next) : GoesOn w (w.moveTo time) := by
  have hkeeps : KeepsTime w.controller w.state (.advance (time - w.state.now)) := by
    refine ⟨Nat.dvd_sub whole h.whole, fun r kind since ready hfetching => ?_⟩
    obtain ⟨hasleep, hrings, -⟩ := h.asleep quiet hfetching
    rw [Nat.add_sub_cancel' onward]
    constructor
    · exact le_of_mem_ringTimes due hasleep (hrings ▸ List.mem_cons_self)
    · exact le_of_mem_ringTimes due hasleep
        (hrings ▸ List.mem_cons_of_mem _ (List.mem_singleton_self _))
  have hwakes : Rouses (w.happen (.advance (time - w.state.now))) (w.moveTo time) :=
    .foldl rouses_wake _
  refine ⟨⟨_, (leads_happen hkeeps).trans hwakes.leads⟩, ?_⟩
  rintro ⟨r, stage⟩ hfetching kind ⟨since, ready, rfl⟩ -
  rw [hwakes.state] at hfetching
  obtain ⟨hasleep, hrings, -⟩ := h.asleep quiet hfetching
  by_cases hdue : (w.ringTimes (.pass r.serial)).any (· ≤ time) = true
  · exact .inl (mem_ready_foldl_wake (.inr (List.mem_filter.2 ⟨hasleep, hdue⟩)))
  · refine hwakes.inSight _ (.inr ⟨hasleep, fun _ _ _ hstage => ?_⟩)
    obtain ⟨-, rfl, rfl⟩ := Stage.fetching.inj hstage
    have hahead : ∀ ring ∈ w.ringTimes (.pass r.serial), time < ring := by simpa using hdue
    rw [hrings] at hahead
    show w.state.now + (time - w.state.now) < _ ∧ w.state.now + (time - w.state.now) < _
    rw [Nat.add_sub_cancel' onward]
    exact ⟨hahead _ List.mem_cons_self, hahead _ (List.mem_cons_of_mem _ List.mem_cons_self)⟩

/-- The simulations that come about. Tasks have their turns in order. When none has one ahead, time
goes by up to the next ring at most. In between, anything may be asked for. -/
inductive Reached (c : Controller) (clock : Instant) : Simulation → Prop where
  | start : Reached c clock (.start c clock)
  | turn {w : Simulation} {task : Task} {rest : List Task} (h : Reached c clock w)
    (next : w.ready = task :: rest) : Reached c clock ({ w with ready := rest }.turn task)
  | moveTo {w : Simulation} {time : Nat} (h : Reached c clock w) (quiet : w.ready = [])
    (whole : nanosPerMilli ∣ time) (onward : w.state.now ≤ time)
    (due : ∀ next, w.nextRing? = some next → time ≤ next) : Reached c clock (w.moveTo time)
  | notify {w : Simulation} (h : Reached c clock w) (n : Notification) :
    Reached c clock (w.tell (.notify n))
  | change {w : Simulation} (h : Reached c clock w) (change : ClusterChange) :
    Reached c clock (w.change change)
  | setClock {w : Simulation} (h : Reached c clock w) (time : Instant) :
    Reached c clock (w.setClock time)
  | close {w : Simulation} (h : Reached c clock w) :
    Reached c clock ({ w with closing := true }.wake .controller)

variable {c : Controller} {clock : Instant}

theorem steady_start (c : Controller) (clock : Instant) : Steady (.start c clock) where
  attended _ hp := absurd hp List.not_mem_nil
  regular := ⟨[], regular_initial c clock⟩
  whole := Nat.dvd_zero _

/-- A simulation has gone through events as a virtual clock asks. -/
theorem Reached.leads (h : Reached c clock w) :
    (∃ events, Leads (.start c clock) events w) ∧ Steady w := by
  have goOn {w w' : Simulation}
      (h : (∃ events, Leads (.start c clock) events w) ∧ Steady w) (step : GoesOn w w') :
      (∃ events, Leads (.start c clock) events w') ∧ Steady w' := by
    obtain ⟨events, hevents⟩ := h.1
    obtain ⟨more, hmore⟩ := step.1
    exact ⟨⟨_, hevents.trans hmore⟩, h.2.step step⟩
  induction h with
  | start => exact ⟨⟨[], rfl, rfl, rfl, trivial⟩, steady_start c clock⟩
  | turn h next ih => exact goOn ih (ih.2.turn next)
  | moveTo h quiet whole onward due ih => exact goOn ih (ih.2.moveTo quiet whole onward due)
  | notify h n ih => exact goOn ih (ih.2.carries (carries_tell _ _ rfl))
  | change h change ih => exact goOn ih (ih.2.carries (carries_happen _ _ rfl))
  | setClock h time ih => exact goOn ih (ih.2.carries (carries_happen _ _ rfl))
  | close h ih =>
    refine goOn ih (ih.2.carries (Carries.trans ?_ (rouses_wake _ _).carries))
    exact ⟨⟨[], rfl, rfl, rfl, trivial⟩, fun _ attended => attended⟩

/-- When nothing has a turn, both the answer and the deadline of a pass that fetches are ahead. -/
theorem Reached.ahead (h : Reached c clock w) (quiet : w.ready = []) {r : Request}
    {kind : ObjectKind} {since ready : Nat}
    (fetching : ⟨r, .fetching kind since ready⟩ ∈ w.state.passes) :
    w.state.now < ringTime ready ∧ w.state.now < ringTime (since + c.config.timeout.nanos) := by
  obtain ⟨⟨events, hleads⟩, hsteady⟩ := h.leads
  obtain ⟨-, hrings, hahead⟩ := hsteady.asleep quiet fetching
  rw [hrings, hleads.controller] at hahead
  exact ⟨hahead _ List.mem_cons_self, hahead _ (List.mem_cons_of_mem _ List.mem_cons_self)⟩

/-! ## What the driver of a simulation asks for -/

theorem Reached.drain (h : Reached c clock w) (steps : Nat) : Reached c clock (w.drain steps) := by
  induction steps generalizing w with
  | zero => exact h
  | succ steps ih =>
    unfold Simulation.drain
    split
    · exact h
    · rename_i task rest next
      exact ih (h.turn next)

theorem Reached.settle (h : Reached c clock w) : Reached c clock w.settle := h.drain _

theorem Reached.ofNotify (h : Reached c clock w) {n : Notification}
    (taken : Simulation.notify w n = .ok w') : Reached c clock w' := by
  have hready : Reached c clock
      (if w.state.queue.length < w.controller.config.queueCapacity then w else w.settle) := by
    split
    · exact h
    · exact h.settle
  simp only [Simulation.notify] at taken
  generalize ite (w.state.queue.length < w.controller.config.queueCapacity) w w.settle = ready
    at hready taken
  split at taken
  · obtain rfl := Except.ok.inj taken
    exact hready.notify n
  · cases taken

theorem Reached.shutdown (h : Reached c clock w) : Reached c clock w.shutdown := h.close.settle

end Simulation

end ClusterVitals
