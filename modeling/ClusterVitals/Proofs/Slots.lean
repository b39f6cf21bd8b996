import ClusterVitals.Proofs.Arrivals

/-!
# One pass for each object, and no more than there are slots

Of each object, at most one pass is under way: it waits for a slot, or has one, or has ended with
the controller yet to take its end. As many passes have slots as there are passes and slots, so no
pass waits while a slot is free.

## Shape of the proofs

That slots are never overdrawn rests on serials: setting the stage of a pass finds it by its serial,
and two passes of one serial would both come to have a slot.
-/

namespace ClusterVitals.Controller

open State

/-! ## Slots -/

/-- As many passes have slots as there are passes and slots. -/
def Slotted (c : Controller) (passes : List Pass) : Prop :=
  passes.countP Pass.hasSlot = min c.config.maxConcurrent passes.length

theorem length_grantFirst (free : Nat) (passes : List Pass) :
    (grantFirst free passes).length = passes.length := by
  have hrequests := congrArg List.length (requests_grantFirst free passes)
  rwa [requests, requests, List.length_map, List.length_map] at hrequests

/-- Free slots go to waiting passes until either run out. -/
theorem countP_grantFirst (free : Nat) (passes : List Pass) :
    (grantFirst free passes).countP Pass.hasSlot =
      min (passes.countP Pass.hasSlot + free) passes.length := by
  induction passes generalizing free with
  | nil => cases free <;> simp [grantFirst]
  | cons p rest ih =>
    have hle := rest.countP_le_length (p := Pass.hasSlot)
    cases free with
    | zero =>
      show (p :: rest).countP Pass.hasSlot = _
      rw [Nat.add_zero, Nat.min_eq_left List.countP_le_length]
    | succ free =>
      unfold grantFirst
      split
      · -- a pass that has its slot takes none of the free ones
        rename_i hslot
        rw [List.countP_cons_of_pos hslot, List.countP_cons_of_pos hslot, ih, List.length_cons]
        omega
      · -- a pass that waits takes one
        rename_i hslot
        rw [List.countP_cons_of_neg hslot, List.countP_cons_of_pos rfl, ih, List.length_cons]
        omega

/-- Giving the free slots leaves none free while a pass waits. -/
theorem slotted_grant (c : Controller) {passes : List Pass}
    (le : passes.countP Pass.hasSlot ≤ c.config.maxConcurrent) : Slotted c (c.grant passes) := by
  rw [Slotted, grant, countP_grantFirst, length_grantFirst]
  omega

theorem Slotted.le {c : Controller} {passes : List Pass} (h : Slotted c passes) :
    passes.countP Pass.hasSlot ≤ c.config.maxConcurrent := by
  rw [Slotted] at h
  omega

theorem Slotted.endPass {c : Controller} {s : State} (h : Slotted c s.passes) (serial : Nat) :
    Slotted c (s.endPass c serial).passes :=
  slotted_grant c (Nat.le_trans (List.filter_sublist.countP_le) h.le)

theorem Slotted.obeyAll {c : Controller} {s : State} (h : Slotted c s.passes)
    (orders : List Order) : Slotted c (s.obeyAll c orders).1.passes := by
  induction orders generalizing s with
  | nil => exact h
  | cons o rest ih =>
    refine ih (s := (s.obey c o).1) ?_
    cases o with
    | start r =>
      -- the pass that is added has no slot before the free ones are given
      refine slotted_grant c ?_
      rw [List.countP_append]
      exact h.le
    | arm t => exact h
    | stop generation => exact h

/-- A pass that has a slot has it in its next stage as well. -/
theorem Slotted.setStage {c : Controller} {s : State} (h : Slotted c s.passes) {serial : Nat}
    {stage : Stage} (slot : stage ≠ .waiting)
    (granted : ∀ p ∈ s.passes, p.request.serial = serial → p.hasSlot) :
    Slotted c (s.setStage serial stage).passes := by
  rw [Slotted, State.setStage, List.countP_map, List.length_map, ← h]
  refine List.countP_congr ?_
  intro p hp
  simp only [Function.comp_apply]
  split
  · rename_i hserial
    rw [granted p hp (by simpa using hserial)]
    simpa [Pass.hasSlot] using slot
  · rfl

theorem Slotted.turn {c : Controller} {s : State} {j : List Entry} {out : State × List Entry}
    (h : Slotted c s.passes) (booked : Booked s j) (numbered : Numbered s j) (turn : Turn c s out) :
    Slotted c out.1.passes := by
  cases turn with
  | @receive n rest running first =>
    exact Slotted.obeyAll (s := { s with queue := rest, ledger := (s.ledger.schedule n).1 }) h _
  | @complete e rest running first =>
    simp only [State.complete]
    split
    · exact (Nat.min_zero _).symm
    · rename_i l orders events hc
      exact Slotted.obeyAll (s := { s with completions := rest, ledger := l }) h _
  | @hear ring rest running first =>
    simp only [hear]
    split
    · exact Slotted.obeyAll (s := { s with
        rings := rest
        ledger := (s.ledger.fire ring.generation ring.notification).1 }) h _
    · exact h
  | @begin r granted =>
    simp only [begin]
    split
    · exact h.endPass _
    · split
      · exact h.endPass _
      · refine Slotted.setStage (s := { s with cluster := _ }) h (by simp) ?_
        intro p hp hserial
        -- the pass that starts is the only one of its serial, and has a slot
        rw [booked.pass_eq_of_serial numbered hp granted hserial]
        rfl
  | @resume r kind since ready allowed fetching elapsed => exact h.endPass _
  | @expire r kind since ready fetching late => exact h.endPass _
  | drop serial => exact h.endPass serial
  | _ => exact h

theorem slotted_run (c : Controller) (clock : Instant) (events : List Event) :
    Slotted c (c.run (.initial clock) events).1.passes := by
  have hrun := run_of_nil c (fun s j => Booked s j ∧ Numbered s j ∧ Slotted c s.passes)
    (fun s j e ⟨hbooked, hnumbered, hslotted⟩ => ⟨hbooked.keeps c e,
      hnumbered.step c e, hslotted.turn hbooked hnumbered (turn_step c s e)⟩)
    (.initial clock) events
    ⟨booked_initial clock, numbered_initial clock, (Nat.min_zero _).symm⟩
  exact hrun.2.2

/-! ## What every state keeps to -/

/-- At most one pass of each object is under way, and no more passes have slots than there are
slots. -/
structure Exclusive (c : Controller) (s : State) (j : List Entry) : Prop where
  /-- All passes of an object that were started have completed, but for one at most. This one waits
  for a slot, has one, or has left its result, and its object is noted to be under way. -/
  one_pass : ∀ key, ∃ current : Option Request,
    starts (own key j) = finishes (own key j) ++ current.toList ∧
      (s.ended key ++ s.running key).Sublist current.toList ∧
        s.ledger.inFlight.contains key = current.isSome
  /-- A pass starts once all passes of its object that were started have completed. -/
  one_by_one : ∀ key, Lane.OneByOne (own key j)
  /-- Something is held back for an object only behind a pass, and no entry is empty. -/
  held_back : ∀ key held, s.ledger.pending[key]? = some held →
    s.ledger.inFlight.contains key ∧ held ≠ .empty
  /-- Passes have slots no more than there are. -/
  slots : s.passes.countP Pass.hasSlot ≤ c.config.maxConcurrent
  /-- A pass waits only while all slots are taken. -/
  waits : ∀ p ∈ s.passes, ¬p.hasSlot → s.passes.countP Pass.hasSlot = c.config.maxConcurrent

theorem State.Follows.held_back {s : State} {key : ObjectKey} {lane : Lane}
    (h : s.Follows key lane) (idle : lane.current = none → lane.held = .empty) {held : Pending}
    (found : s.ledger.pending[key]? = some held) :
    s.ledger.inFlight.contains key ∧ held ≠ .empty := by
  rw [h.books.held] at found
  split at found
  · cases found
  · rename_i hempty
    have hheld : lane.held = held := Option.some.inj found
    rw [hheld, Pending.isEmpty_iff] at hempty
    refine ⟨?_, hempty⟩
    rw [h.books.busy]
    rcases hcurrent : lane.current with _ | cur
    · exact absurd (hheld ▸ idle hcurrent) hempty
    · rfl

theorem Slotted.waits {c : Controller} {passes : List Pass} (h : Slotted c passes) {p : Pass}
    (hp : p ∈ passes) (waiting : ¬p.hasSlot) :
    passes.countP Pass.hasSlot = c.config.maxConcurrent := by
  have hlt : passes.countP Pass.hasSlot < passes.length := by
    refine Nat.lt_of_le_of_ne List.countP_le_length ?_
    intro hall
    exact waiting (List.countP_eq_length.1 hall p hp)
  rw [Slotted] at h
  omega

/-- Every state that a run reaches, whatever order its events come in, keeps to one pass for each
object and to its slots. -/
theorem run_exclusive (c : Controller) (clock : Instant) (events : List Event) :
    Exclusive c (c.run (.initial clock) events).1 (c.run (.initial clock) events).2 := by
  have hbooked := booked_run c clock events
  have hslotted := slotted_run c clock events
  constructor
  case one_pass =>
    intro key
    obtain ⟨lane, hfollows, hhistory⟩ := hbooked key
    exact ⟨lane.current, hhistory.serialized.open_eq, hfollows.tasks, hfollows.books.busy⟩
  case one_by_one =>
    intro key
    obtain ⟨lane, -, hhistory⟩ := hbooked key
    exact hhistory.serialized.oneByOne
  case held_back =>
    intro key held hheld
    obtain ⟨lane, hfollows, hhistory⟩ := hbooked key
    exact hfollows.held_back hhistory.lined.idle hheld
  case slots => exact hslotted.le
  case waits => exact fun p hp hwaiting => hslotted.waits hp hwaiting

end ClusterVitals.Controller
