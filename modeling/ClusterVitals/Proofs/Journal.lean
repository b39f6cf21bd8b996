import ClusterVitals.Controller.State

/-!
# Journals of runs

What holds of a state together with its journal, and is kept by every event, holds at the end of a
run. `Turn` lists what one event can do to a state, with the guards under which it happens. Whatever
is kept by every turn is kept by every event.
-/

namespace ClusterVitals.Controller

open State

variable (c : Controller)

/-- What holds of a state with the journal up to it, and is kept by every event, holds at the end of
a run with the journal of the run added. -/
theorem run_journal (Inv : State → List Entry → Prop)
    (kept : ∀ s j e, Inv s j → Inv (c.step s e).1 (j ++ (c.step s e).2))
    (s : State) (j : List Entry) (events : List Event) (h : Inv s j) :
    Inv (c.run s events).1 (j ++ (c.run s events).2) := by
  -- on the events, each of which adds its entries to the journal so far
  induction events generalizing s j with
  | nil =>
    rw [show (c.run s []).2 = [] from rfl, List.append_nil]
    exact h
  | cons e rest ih =>
    have hrest := ih (c.step s e).1 (j ++ (c.step s e).2) (kept s j e h)
    rw [List.append_assoc] at hrest
    exact hrest

/-- The same for a run from a state with nothing in the journal. -/
theorem run_of_nil (Inv : State → List Entry → Prop)
    (kept : ∀ s j e, Inv s j → Inv (c.step s e).1 (j ++ (c.step s e).2))
    (s : State) (events : List Event) (h : Inv s []) :
    Inv (c.run s events).1 (c.run s events).2 := by
  have hrun := run_journal c Inv kept s [] events h
  rw [List.nil_append] at hrun
  exact hrun

/-- A run splits at each of its events. -/
theorem run_split (s : State) (first rest : List Event) (e : Event) :
    c.run s (first ++ e :: rest) =
      ((c.run (c.step (c.run s first).1 e).1 rest).1,
        (c.run s first).2 ++ (c.step (c.run s first).1 e).2 ++
          (c.run (c.step (c.run s first).1 e).1 rest).2) := by
  rw [run_append]
  simp only [run, List.append_assoc]

/-- A run goes on with one more event. -/
theorem run_concat (s : State) (events : List Event) (e : Event) :
    c.run s (events ++ [e]) =
      ((c.step (c.run s events).1 e).1, (c.run s events).2 ++ (c.step (c.run s events).1 e).2) := by
  rw [run_split]
  simp only [run, List.append_nil]

/-! ## Orders -/

/-- What carrying out an order leaves in the journal. -/
def Entry.ofOrder : Order → Entry
  | .start r => .started r
  | .arm t => .armed t
  | .stop generation => .replaced generation

theorem obey_entries (s : State) (o : Order) : (s.obey c o).2 = [.ofOrder o] := by
  cases o <;> rfl

theorem obeyAll_entries (s : State) (orders : List Order) :
    (s.obeyAll c orders).2 = orders.map .ofOrder := by
  induction orders generalizing s with
  | nil => rfl
  | cons o rest ih =>
    show (s.obey c o).2 ++ ((s.obey c o).1.obeyAll c rest).2 = _
    rw [obey_entries, ih]
    rfl

/-- Carrying out orders changes the passes and the timers, and nothing else. -/
theorem obeyAll_frame (s : State) (orders : List Order) :
    (s.obeyAll c orders).1 =
      { s with
        passes := (s.obeyAll c orders).1.passes, sleepers := (s.obeyAll c orders).1.sleepers } := by
  induction orders generalizing s with
  | nil => rfl
  | cons o rest ih =>
    have hrest := ih (s.obey c o).1
    cases o <;> exact hrest

/-! ## The work of passes -/

/-- Starting a pass changes the passes and their ends, the vitals and the cluster, and nothing
else. -/
theorem begin_frame (s : State) (r : Request) :
    (s.begin c r).1 =
      { s with
        passes := (s.begin c r).1.passes, completions := (s.begin c r).1.completions
        vitals := (s.begin c r).1.vitals, cluster := (s.begin c r).1.cluster } := by
  unfold State.begin
  split
  · rfl
  · dsimp only
    split <;> rfl

/-- An entry of the work of a pass: an effect, or an event for the log. -/
def Entry.isWork : Entry → Bool
  | .applied _ | .logged _ => true
  | _ => false

theorem isWork_of_mem_logged {events : List LogEvent} {e : Entry}
    (h : e ∈ events.map Entry.logged) : e.isWork := by
  obtain ⟨event, -, rfl⟩ := List.mem_map.1 h
  rfl

theorem isWork_of_mem_carryOut {s : State} {r : Request} {plan : Plan} {e : Entry}
    (h : e ∈ (s.carryOut c r plan).2) : e.isWork := by
  rcases List.mem_append.1 h with h | h
  · obtain ⟨effect, -, rfl⟩ := List.mem_map.1 h
    rfl
  · exact isWork_of_mem_logged h

theorem isWork_of_mem_begin {s : State} {r : Request} {e : Entry} (h : e ∈ (s.begin c r).2) :
    e.isWork := by
  unfold State.begin at h
  split at h
  · exact absurd h List.not_mem_nil
  · dsimp only at h
    split at h
    · rcases List.mem_cons.1 h with rfl | h
      · rfl
      · exact isWork_of_mem_carryOut c h
    · rw [List.mem_singleton.1 h]
      rfl

theorem isWork_of_mem_resume {s : State} {r : Request} {kind : ObjectKind} {allowed : Option Nat}
    {e : Entry} (h : e ∈ (s.resume c r kind allowed).2) : e.isWork := by
  unfold State.resume at h
  dsimp only at h
  split at h
  · rcases List.mem_cons.1 h with rfl | h
    · rfl
    · exact isWork_of_mem_carryOut c h
  · exact isWork_of_mem_carryOut c h

/-! ## Turns -/

/-- What an event can do to a state: the state after it, and its entries. -/
inductive Turn (c : Controller) (s : State) : State × List Entry → Prop where
  /-- The controller, its passes and its timers are left alone. -/
  | aside (queue : List Notification) (clock : Instant) (now : Nat) :
      Turn c s ({ s with queue, clock, now }, [])
  | change (change : ClusterChange) :
      Turn c s ({ s with cluster := change.apply s.cluster }, [])
  | receive {n : Notification} {rest : List Notification} (running : s.phase = .running)
      (first : s.queue = n :: rest) : Turn c s ({ s with queue := rest }.receive c n)
  | complete {e : Completion} {rest : List Completion} (running : s.phase = .running)
      (first : s.completions = e :: rest) :
      Turn c s ({ s with completions := rest }.complete c e.request e.result)
  | hear {ring : Ring} {rest : List Ring} (running : s.phase = .running)
      (first : s.rings = ring :: rest) : Turn c s ({ s with rings := rest }.hear c ring)
  | ring {t : Sleeper} (asleep : t ∈ s.sleepers) (live : ¬t.stopped)
      (due : ringTime t.due ≤ s.now) :
      Turn c s ({ s.endTimer t.timer.generation with
        rings := s.rings ++ [⟨t.timer.generation, t.timer.notification⟩] }, [])
  | reap {t : Sleeper} (asleep : t ∈ s.sleepers) (stopped : t.stopped) :
      Turn c s (s.endTimer t.timer.generation, [])
  | begin {r : Request} (granted : ⟨r, .granted⟩ ∈ s.passes) : Turn c s (s.begin c r)
  | resume {r : Request} {kind : ObjectKind} {since ready : Nat} (allowed : Option Nat)
      (fetching : ⟨r, .fetching kind since ready⟩ ∈ s.passes) (elapsed : ringTime ready ≤ s.now) :
      Turn c s (s.resume c r kind allowed)
  | expire {r : Request} {kind : ObjectKind} {since ready : Nat}
      (fetching : ⟨r, .fetching kind since ready⟩ ∈ s.passes)
      (late : ringTime (since + c.config.timeout.nanos) ≤ s.now) :
      Turn c s (s.leaveResult c r (.error (lateError c r)), [])
  /-- A pass ends without a result. -/
  | drop (serial : Nat) : Turn c s (s.endPass c serial, [])
  | close (running : s.phase = .running) :
      Turn c s ({ s with phase := .closing, ledger := { s.ledger with timers := ∅ } }, [])
  | stopTimer (generation : Nat) (closing : s.phase = .closing) :
      Turn c s (s.stopTimer generation, [])
  | finish (closing : s.phase = .closing) (passes : s.passes = []) (sleepers : s.sleepers = []) :
      Turn c s ({ s with phase := .stopped }, [.logged .controllerStopped])

/-- An event that cannot happen changes nothing. -/
theorem Turn.idle (s : State) : Turn c s (s, []) := .aside s.queue s.clock s.now

theorem mem_of_pass? {s : State} {serial : Nat} {p : Pass} (h : s.pass? serial = some p) :
    p ∈ s.passes :=
  List.mem_of_find?_eq_some h

theorem mem_of_sleeper? {s : State} {generation : Nat} {t : Sleeper}
    (h : s.sleeper? generation = some t) : t ∈ s.sleepers ∧ t.timer.generation = generation :=
  ⟨List.mem_of_find?_eq_some h, by simpa using List.find?_some h⟩

/-- Every event is a turn. -/
theorem turn_step (s : State) (e : Event) : Turn c s (c.step s e) := by
  -- the guards of an event are those of its turn, and without them it is idle
  cases e with
  | notify n =>
    simp only [step]
    split
    · exact .aside (s.queue ++ [n]) s.clock s.now
    · exact .idle c s
  | receive =>
    simp only [step]
    split
    · exact .receive ‹_› ‹_›
    · exact .idle c s
  | complete =>
    simp only [step]
    split
    · exact .complete ‹_› ‹_›
    · exact .idle c s
  | hear =>
    simp only [step]
    split
    · exact .hear ‹_› ‹_›
    · exact .idle c s
  | ring generation =>
    simp only [step]
    split
    · rename_i t found
      obtain ⟨asleep, rfl⟩ := mem_of_sleeper? found
      split
      · rename_i h
        exact .ring asleep h.1 h.2
      · exact .idle c s
    · exact .idle c s
  | reap generation =>
    simp only [step]
    split
    · rename_i t found
      obtain ⟨asleep, rfl⟩ := mem_of_sleeper? found
      split
      · exact .reap asleep ‹_›
      · exact .idle c s
    · exact .idle c s
  | begin serial =>
    simp only [step]
    split
    · exact .begin (mem_of_pass? ‹_›)
    · exact .idle c s
  | resume serial allowed =>
    simp only [step]
    split
    · split
      · exact .resume allowed (mem_of_pass? ‹_›) ‹_›
      · exact .idle c s
    · exact .idle c s
  | expire serial =>
    simp only [step]
    split
    · split
      · rename_i h
        exact .expire (mem_of_pass? ‹_›) h.1
      · exact .idle c s
    · exact .idle c s
  | die serial =>
    simp only [step]
    split
    · split
      · exact .drop serial
      · exact .idle c s
    · exact .idle c s
  | advance nanos => exact .aside s.queue s.clock (s.now + nanos)
  | setClock clock => exact .aside s.queue clock s.now
  | change change => exact .change change
  | close =>
    simp only [step]
    split
    · exact .close ‹_›
    · exact .idle c s
  | stopTimer generation =>
    simp only [step]
    split
    · exact .stopTimer generation ‹_›
    · exact .idle c s
  | stopPass serial =>
    simp only [step]
    split
    · exact .drop serial
    · exact .idle c s
  | finish =>
    simp only [step]
    split
    · rename_i h
      exact .finish h.1 h.2.1 h.2.2
    · exact .idle c s

end ClusterVitals.Controller
