import ClusterVitals.Proofs.LedgerLanes
import Mathlib.Data.List.Basic
import Mathlib.Tactic.Set

/-!
# Books follow lanes

In every run, whatever order its events come in, the books of a controller hold for each object what
its lane comes to, and the passes and ends of passes of the object are at most the one that is under
way in its lane. An event is at most one step of each lane.
-/

namespace ClusterVitals

namespace Controller

open State

/-! ## Passes and ends of passes -/

/-- The requests whose passes have not ended. -/
def requests (passes : List Pass) : List Request := passes.map Pass.request

/-- Giving slots changes no request. -/
theorem requests_grantFirst (free : Nat) (passes : List Pass) :
    requests (grantFirst free passes) = requests passes := by
  induction passes generalizing free with
  | nil => cases free <;> rfl
  | cons p rest ih =>
    cases free with
    | zero => rfl
    | succ free =>
      unfold grantFirst
      split
      · exact congrArg (p.request :: ·) (ih _)
      · exact congrArg (p.request :: ·) (ih _)

theorem requests_grant (c : Controller) (passes : List Pass) :
    requests (c.grant passes) = requests passes :=
  requests_grantFirst _ _

/-- Carrying out orders adds the passes that are started. -/
theorem requests_obeyAll (c : Controller) (s : State) (orders : List Order) :
    requests (s.obeyAll c orders).1.passes = requests s.passes ++ starts (orders.map .ofOrder) := by
  induction orders generalizing s with
  | nil => exact (List.append_nil _).symm
  | cons o rest ih =>
    refine (ih (s.obey c o).1).trans ?_
    cases o with
    | start r =>
      show requests (c.grant (s.passes ++ [⟨r, .waiting⟩])) ++ _ = _
      rw [requests_grant, requests, List.map_append, List.append_assoc]
      rfl
    | arm t => rfl
    | stop generation => rfl

/-- Orders take no end of a pass. -/
theorem finishes_ofOrder (orders : List Order) : finishes (orders.map .ofOrder) = [] := by
  refine List.filterMap_eq_nil_iff.2 ?_
  intro e he
  obtain ⟨o, -, rfl⟩ := List.mem_map.1 he
  cases o <;> rfl

/-- What is logged takes no end of a pass and starts none. -/
theorem filterMap_logged {f : Entry → Option Request} (hf : ∀ event, f (.logged event) = none)
    (events : List LogEvent) : (events.map .logged).filterMap f = [] := by
  refine List.filterMap_eq_nil_iff.2 ?_
  intro e he
  obtain ⟨event, -, rfl⟩ := List.mem_map.1 he
  exact hf event

theorem starts_completed (r : Request) (result : PassResult) (events : List LogEvent)
    (orders : List Order) :
    starts (.completed r result :: events.map .logged ++ orders.map .ofOrder) =
      starts (orders.map .ofOrder) := by
  show starts (events.map .logged ++ orders.map .ofOrder) = _
  rw [starts_append, starts, filterMap_logged fun _ => rfl, List.nil_append]

theorem finishes_completed (r : Request) (result : PassResult) (events : List LogEvent)
    (orders : List Order) :
    finishes (.completed r result :: events.map .logged ++ orders.map .ofOrder) = [r] := by
  show r :: finishes (events.map .logged ++ orders.map .ofOrder) = [r]
  rw [finishes_append, finishes_ofOrder, finishes, filterMap_logged fun _ => rfl, List.nil_append]

/-- Setting a stage changes no request. -/
theorem requests_setStage (s : State) (serial : Nat) (stage : Stage) :
    requests (s.setStage serial stage).passes = requests s.passes := by
  simp only [requests, setStage, List.map_map]
  refine List.map_congr_left ?_
  intro p _
  simp only [Function.comp_apply]
  split <;> rfl

/-- Ending a pass leaves some of the others. -/
theorem requests_endPass (c : Controller) (s : State) (serial : Nat) :
    requests (s.endPass c serial).passes = (requests s.passes).filter (·.serial != serial) := by
  show requests (c.grant _) = _
  rw [requests_grant, requests, requests, List.filter_map]
  rfl

/-- The requests of an object whose passes have not ended. -/
def State.running (s : State) (key : ObjectKey) : List Request :=
  (requests s.passes).filter (·.key = key)

/-- The requests of an object whose passes have ended, but whose ends have not been taken. -/
def State.ended (s : State) (key : ObjectKey) : List Request :=
  (s.completions.map Completion.request).filter (·.key = key)

/-- The books, the passes and the ends of passes of an object follow a lane. -/
structure State.Follows (s : State) (key : ObjectKey) (lane : Lane) : Prop where
  books : s.ledger.Matches key lane
  tasks : (s.ended key ++ s.running key).Sublist lane.current.toList

theorem follows_initial (clock : Instant) (key : ObjectKey) :
    (State.initial clock).Follows key .empty where
  books := Ledger.matches_empty key
  tasks := List.nil_sublist _

namespace State.Follows

variable {s s' : State} {key : ObjectKey} {lane lane' : Lane}

/-- What becomes of the passes of an object does not matter for its lane, as long as none comes up.
-/
theorem congr (h : s.Follows key lane) (books : s'.ledger.Matches key lane)
    (ended : (s'.ended key).Sublist (s.ended key))
    (running : (s'.running key).Sublist (s.running key)) : s'.Follows key lane where
  books := books
  tasks := (ended.append running).trans h.tasks

/-- A step of the lane that takes ends of passes and starts passes. -/
theorem move {es : List Entry} (h : s.Follows key lane) (moves : lane.Moves es lane')
    (books : s'.ledger.Matches key lane') (ended : s.ended key = finishes es ++ s'.ended key)
    (running : s'.running key = s.running key ++ starts es) : s'.Follows key lane' where
  books := books
  tasks := by
    -- what is started comes behind, and the ends that are taken go in front, on both sides
    have htasks := h.tasks.append_right (starts es)
    rw [moves.balance, ended, List.append_assoc, List.append_assoc,
      List.append_sublist_append_left, ← running] at htasks
    exact htasks

/-- A request that has a pass or an end of one is the current one of its lane. -/
theorem current_of_mem {r : Request} (h : s.Follows key lane)
    (hr : r ∈ s.ended key ++ s.running key) : lane.current = some r :=
  Option.mem_toList.1 (h.tasks.subset hr)

/-- A request whose pass is under way has this pass only. -/
theorem of_mem_running {r : Request} (h : s.Follows key lane) (hr : r ∈ s.running key) :
    s.ended key = [] ∧ s.running key = [r] := by
  have htasks := h.tasks
  rw [h.current_of_mem (List.mem_append_right _ hr)] at htasks
  -- the passes and ends of the object are part of a list of one
  rcases List.sublist_singleton.1 htasks with hnil | hone
  · rw [(List.append_eq_nil_iff.1 hnil).2] at hr
    exact absurd hr List.not_mem_nil
  · rcases List.append_eq_singleton_iff.1 hone with hsplit | ⟨-, hnil⟩
    · exact hsplit
    · rw [hnil] at hr
      exact absurd hr List.not_mem_nil

/-- Ending a pass, with or without a result. -/
theorem endPass (h : s.Follows key lane) (c : Controller) (serial : Nat) :
    (s.endPass c serial).Follows key lane := by
  refine h.congr h.books (List.Sublist.refl _) ?_
  rw [running, requests_endPass]
  exact List.filter_sublist.filter _

theorem leaveResult (h : s.Follows key lane) (c : Controller) {r : Request}
    (hr : r ∈ requests s.passes) (result : PassResult) :
    (s.leaveResult c r result).Follows key lane := by
  have hended : (s.leaveResult c r result).ended key = s.ended key ++ [r].filter (·.key = key) := by
    rw [ended, State.leaveResult, List.map_append, List.filter_append]
    rfl
  have hrunning : (s.leaveResult c r result).running key =
      ((requests s.passes).filter (·.serial != r.serial)).filter (·.key = key) := by
    rw [running, ← requests_endPass c]
    rfl
  by_cases hkey : r.key = key
  · -- the end takes the place of the pass
    have hmem : r ∈ s.running key := List.mem_filter.2 ⟨hr, by simpa using hkey⟩
    obtain ⟨hnil, hone⟩ := h.of_mem_running hmem
    refine ⟨h.books, ?_⟩
    rw [hended, hrunning, hnil, h.current_of_mem (List.mem_append_right _ hmem),
      List.filter_comm, show (requests s.passes).filter (·.key = key) = [r] from hone]
    simp [hkey]
  · refine h.congr h.books ?_ ?_
    · rw [hended, List.filter_cons_of_neg (by simpa using hkey), List.filter_nil, List.append_nil]
    · rw [hrunning]
      exact List.filter_sublist.filter _

theorem carryOut (h : s.Follows key lane) (c : Controller) {r : Request}
    (hr : r ∈ requests s.passes) (plan : Plan) : (s.carryOut c r plan).1.Follows key lane := by
  have hs : State.Follows { s with vitals := (s.vitals.applyAll plan.effects).1 } key lane :=
    ⟨h.books, h.tasks⟩
  exact hs.leaveResult c hr plan.result

end State.Follows

/-! ## Turns -/

/-- The work of passes belongs to no lane. -/
theorem own_of_work {key : ObjectKey} {es : List Entry} (work : ∀ e ∈ es, e.isWork) :
    own key es = [] :=
  own_eq_nil fun e he => by
    have hwork := work e he
    cases e with
    | applied effect => rfl
    | logged event => rfl
    | _ => cases hwork

namespace State.Follows

variable {c : Controller} {s : State} {key : ObjectKey} {lane : Lane}

/-- Scheduling a notification is at most one step of a lane. -/
theorem schedule (h : s.Follows key lane) (idle : lane.current = none → lane.held = .empty)
    (n : Notification) :
    ∃ lane', lane.Moves (own key (s.schedule c n).2) lane' ∧
      (s.schedule c n).1.Follows key lane' := by
  obtain ⟨lane', hmoves, hbooks⟩ := h.books.schedule idle n
  set l := (s.ledger.schedule n).1 with hl
  set orders := (s.ledger.schedule n).2 with horders
  have hentries : (s.schedule c n).2 =
      .scheduled ⟨s.ledger.nextSerial, n⟩ :: orders.map .ofOrder := by
    rw [← obeyAll_entries c { s with ledger := l }]
    rfl
  have hstate : (s.schedule c n).1 = (obeyAll c { s with ledger := l } orders).1 := rfl
  rw [hentries]
  refine ⟨lane', hmoves, h.move hmoves ?_ ?_ ?_⟩
  · rw [hstate, obeyAll_frame]
    exact hbooks
  · have hquiet : finishes (.scheduled ⟨s.ledger.nextSerial, n⟩ :: orders.map .ofOrder) = [] :=
      finishes_ofOrder orders
    rw [finishes_own, hquiet, hstate, obeyAll_frame]
    rfl
  · rw [starts_own, running, hstate, requests_obeyAll, List.filter_append]
    rfl

/-- Taking the end of a pass is at most one step of a lane. -/
theorem complete {e : Completion} {rest : List Completion} {other : Lane}
    (h : s.Follows key lane) (h' : s.Follows e.request.key other)
    (first : s.completions = e :: rest) :
    ∃ lane', lane.Moves
        (own key (State.complete c { s with completions := rest } e.request e.result).2) lane' ∧
      (State.complete c { s with completions := rest } e.request e.result).1.Follows key lane' := by
  have hfirst (k : ObjectKey) :
      s.ended k = [e.request].filter (·.key = k) ++ ended { s with completions := rest } k := by
    rw [ended, first, ended, List.map_cons, ← List.singleton_append, List.filter_append]
  simp only [State.complete]
  split
  · -- the controller breaks off, and its passes with it
    refine ⟨lane, .inl ⟨rfl, rfl⟩, h.congr h.books ?_ (List.nil_sublist _)⟩
    rw [hfirst]
    exact List.sublist_append_right _ _
  · rename_i l orders events hc
    have hentries : Entry.completed e.request e.result :: events.map .logged ++
        (obeyAll c { s with completions := rest, ledger := l } orders).2 =
          .completed e.request e.result :: events.map .logged ++ orders.map .ofOrder := by
      rw [obeyAll_entries]
    obtain ⟨lane', hmoves, hbooks⟩ : ∃ lane', lane.Moves (own key
        (.completed e.request e.result :: events.map .logged ++ orders.map .ofOrder)) lane' ∧
        l.Matches key lane' := by
      by_cases hkey : e.request.key = key
      · -- the end that is taken is of the pass that is under way in the lane
        subst hkey
        have hmem : e.request ∈ s.ended e.request.key := by
          rw [hfirst]
          exact List.mem_append_left _ (by simp)
        obtain ⟨lane', hstep, hbooks⟩ :=
          h.books.complete (h.current_of_mem (List.mem_append_left _ hmem)) hc
        exact ⟨lane', .inr hstep, hbooks⟩
      · obtain ⟨hnone, hbooks⟩ := h.books.complete_other h'.books hkey hc
        exact ⟨lane, .inl ⟨rfl, hnone⟩, hbooks⟩
    rw [← hentries] at hmoves
    refine ⟨lane', hmoves, h.move hmoves ?_ ?_ ?_⟩
    · rw [obeyAll_frame]
      exact hbooks
    · rw [finishes_own, hentries, finishes_completed, obeyAll_frame, hfirst]
      rfl
    · rw [starts_own, hentries, starts_completed, running, requests_obeyAll, List.filter_append]
      rfl

/-- Taking the message of a timer is at most one step of a lane. -/
theorem hear (h : s.Follows key lane) (idle : lane.current = none → lane.held = .empty)
    (ring : Ring) :
    ∃ lane', lane.Moves (own key (s.hear c ring).2) lane' ∧
      (s.hear c ring).1.Follows key lane' := by
  simp only [State.hear]
  split
  · rename_i hcurrent
    rw [Ledger.fire, if_pos hcurrent]
    set l : Ledger := { s.ledger with timers := s.ledger.timers.erase ring.notification.key }
    have hs : State.Follows { s with ledger := l } key lane :=
      ⟨h.books.congr rfl rfl (Nat.le_refl _), h.tasks⟩
    exact hs.schedule idle ring.notification
  · exact ⟨lane, .inl ⟨rfl, rfl⟩, h⟩

/-- Starting a pass that has a slot is no step of a lane. -/
theorem begin (h : s.Follows key lane) {r : Request} (hr : r ∈ requests s.passes) :
    (s.begin c r).1.Follows key lane := by
  simp only [State.begin]
  split
  · exact h.endPass c _
  · split
    · exact h.carryOut c hr _
    · refine ⟨h.books, ?_⟩
      rw [State.running, requests_setStage]
      exact h.tasks

/-- Every turn is at most one step of a lane. -/
theorem turn {out : State × List Entry} (h : s.Follows key lane)
    (idle : lane.current = none → lane.held = .empty) (others : ∀ k, ∃ lane', s.Follows k lane')
    (turn : Turn c s out) :
    ∃ lane', lane.Moves (own key out.2) lane' ∧ out.1.Follows key lane' := by
  have hstill {s' : State} {es : List Entry} (hs' : s'.Follows key lane) (hes : own key es = []) :
      ∃ lane', lane.Moves (own key es) lane' ∧ s'.Follows key lane' := ⟨lane, .inl ⟨rfl, hes⟩, hs'⟩
  -- most turns leave the passes and their ends alone, and what the lane has of the books
  have hkeep (s' : State) (hbooks : s'.ledger.Matches key lane)
      (hcompletions : s'.completions = s.completions) (hpasses : s'.passes = s.passes) :
      s'.Follows key lane := by
    refine ⟨hbooks, ?_⟩
    rw [ended, running, hcompletions, hpasses]
    exact h.tasks
  cases turn with
  | aside => exact hstill (hkeep _ h.books rfl rfl) rfl
  | change => exact hstill (hkeep _ h.books rfl rfl) rfl
  | @receive n rest running first =>
    exact (hkeep { s with queue := rest } h.books rfl rfl).schedule idle n
  | @complete e rest running first =>
    obtain ⟨other, hother⟩ := others e.request.key
    exact h.complete hother first
  | @hear ring rest running first =>
    exact (hkeep { s with rings := rest } h.books rfl rfl).hear idle ring
  | ring => exact hstill (hkeep _ h.books rfl rfl) rfl
  | reap => exact hstill (hkeep _ h.books rfl rfl) rfl
  | begin granted =>
    exact hstill (h.begin (List.mem_map_of_mem granted))
      (own_of_work fun _ he => isWork_of_mem_begin c he)
  | @resume r kind since ready allowed fetching elapsed =>
    have hs : State.Follows { s with cluster := (s.cluster.answer kind r.key).1 } key lane :=
      hkeep _ h.books rfl rfl
    exact hstill (hs.carryOut c (List.mem_map_of_mem fetching) _)
      (own_of_work fun _ he => isWork_of_mem_resume c he)
  | expire fetching late =>
    exact hstill (h.leaveResult c (List.mem_map_of_mem fetching) _) rfl
  | drop => exact hstill (h.endPass c _) rfl
  | close => exact hstill (hkeep _ (h.books.congr rfl rfl (Nat.le_refl _)) rfl rfl) rfl
  | stopTimer => exact hstill (hkeep _ h.books rfl rfl) rfl
  | finish => exact hstill (hkeep _ h.books rfl rfl) rfl

end State.Follows

/-! ## Runs -/

/-- Every object has a lane that the state follows, and whose history is in the journal. -/
def Booked (s : State) (j : List Entry) : Prop :=
  ∀ key, ∃ lane : Lane, s.Follows key lane ∧ Lane.History (own key j) lane

theorem booked_initial (clock : Instant) : Booked (.initial clock) [] := fun key =>
  ⟨.empty, follows_initial clock key, .empty⟩

/-- An event takes each lane on. -/
theorem Booked.step {s : State} {j : List Entry} (h : Booked s j) (c : Controller) (e : Event)
    {key : ObjectKey} {lane : Lane} (follows : s.Follows key lane)
    (history : Lane.History (own key j) lane) :
    ∃ lane', lane.Moves (own key (c.step s e).2) lane' ∧ (c.step s e).1.Follows key lane' := by
  have hothers (k : ObjectKey) : ∃ lane', s.Follows k lane' := by
    obtain ⟨lane', hfollows, -⟩ := h k
    exact ⟨lane', hfollows⟩
  exact follows.turn history.lined.idle hothers (turn_step c s e)

theorem Booked.keeps {s : State} {j : List Entry} (h : Booked s j) (c : Controller) (e : Event) :
    Booked (c.step s e).1 (j ++ (c.step s e).2) := by
  intro key
  obtain ⟨lane, hfollows, hhistory⟩ := h key
  obtain ⟨lane', hmoves, hfollows'⟩ := h.step c e hfollows hhistory
  refine ⟨lane', hfollows', ?_⟩
  rw [own_append]
  exact hmoves.run.history hhistory

/-- Every run keeps its books. -/
theorem booked_run (c : Controller) (clock : Instant) (events : List Event) :
    Booked (c.run (.initial clock) events).1 (c.run (.initial clock) events).2 :=
  run_of_nil c Booked (fun _ _ e h => h.keeps c e) _ events (booked_initial clock)

/-- A run goes on in each lane. -/
theorem Booked.run {s : State} {j : List Entry} (h : Booked s j) (c : Controller)
    (events : List Event) {key : ObjectKey} {lane : Lane} (follows : s.Follows key lane)
    (history : Lane.History (own key j) lane) :
    ∃ lane', lane.Run (own key (c.run s events).2) lane' ∧
      (c.run s events).1.Follows key lane' := by
  induction events generalizing s j lane with
  | nil => exact ⟨lane, .nil lane, follows⟩
  | cons e rest ih =>
    obtain ⟨middle, hmoves, hfollows⟩ := h.step c e follows history
    have hhistory : Lane.History (own key (j ++ (c.step s e).2)) middle := by
      rw [own_append]
      exact hmoves.run.history history
    obtain ⟨lane', hrun, hfollows'⟩ := ih (h.keeps c e) hfollows hhistory
    refine ⟨lane', ?_, hfollows'⟩
    show lane.Run (own key ((c.step s e).2 ++ (c.run (c.step s e).1 rest).2)) lane'
    rw [own_append]
    exact hmoves.run.append hrun

end Controller

end ClusterVitals
