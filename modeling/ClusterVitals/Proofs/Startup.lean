import ClusterVitals.Config.Document
import ClusterVitals.Proofs.RecheckBound
import ClusterVitals.Service

/-!
# What valid settings are enough for

Whether settings are valid is a matter of lower bounds. A controller cannot have any number of slots
or any length of queue, and running times cannot be told for ever: with valid settings a start can
fail all the same, and a pass can die as it starts. Both happen exactly beyond the limits of these
numbers.
-/

namespace ClusterVitals

/-- A controller can have so many slots, and so long a queue. -/
def ReconcileConfig.Fits (c : ReconcileConfig) : Prop :=
  c.maxConcurrent ≤ Controller.largestCapacity ∧ c.queueCapacity ≤ Controller.largestCapacity

instance (c : ReconcileConfig) : Decidable c.Fits := inferInstanceAs (Decidable (_ ∧ _))

namespace Config

variable {c : Config}

theorem isValid_of_validated {d : Config} (h : c.validated = .ok d) : d.IsValid := by
  unfold validated at h
  split at h
  · cases h
  · cases h
    assumption

/-- Settings that were read are valid. -/
theorem isValid_of_parse {text : String} (h : parse text = .ok c) : c.IsValid := by
  unfold parse at h
  split at h
  · cases h
  · split at h
    · cases h
    · rename_i read _
      rcases hvalidated : read.validated with violation | d
      · rw [hvalidated] at h
        cases h
      · rw [hvalidated] at h
        obtain rfl : d = c := Except.ok.inj h
        exact isValid_of_validated hvalidated

theorem isValid_of_load {file : Option (List UInt8)} (h : load file = .ok c) : c.IsValid := by
  unfold load at h
  split at h
  · cases h
  · split at h
    · cases h
    · exact isValid_of_parse h

/-- There is room in the queue of valid settings. -/
theorem IsValid.queueCapacity_pos (h : c.IsValid) : 0 < c.reconcile.queueCapacity := by
  have hreconcile : c.reconcile.violation? = none := by
    rw [IsValid, violation?, Option.orElse_eq_none, Option.orElse_eq_none] at h
    exact h.2.1
  unfold ReconcileConfig.violation? at hreconcile
  split at hreconcile
  · cases hreconcile
  · split at hreconcile
    · cases hreconcile
    · split at hreconcile
      · cases hreconcile
      · exact Nat.pos_of_ne_zero ‹_›

/-- A controller of valid settings can be started exactly if it fits. -/
theorem IsValid.canStart_iff (h : c.IsValid) :
    (Controller.ofConfig c).canStart ↔ c.reconcile.Fits := by
  have hpos := h.queueCapacity_pos
  rw [Controller.canStart, Bool.and_eq_true, Bool.and_eq_true, decide_eq_true_iff,
    decide_eq_true_iff, decide_eq_true_iff, ReconcileConfig.Fits]
  exact ⟨fun h => ⟨h.2, h.1.2⟩, fun h => ⟨⟨hpos, h.2⟩, h.1⟩⟩

/-- Valid settings are started if they fit. If not, there is no violation to tell of. -/
theorem IsValid.launch_eq (h : c.IsValid) (clock : Instant) :
    Simulation.launch c clock =
      if c.reconcile.Fits then .ok (.start (.ofConfig c) clock) else .error .capacity := by
  rw [Simulation.launch, show c.violation? = none from h]
  exact if_congr h.canStart_iff rfl rfl

end Config

namespace Controller

open State

variable {c : Controller} {clock : Instant} {s : State} {j : List Entry} {key : ObjectKey}

/-- Time does not go back. -/
theorem le_now_run (s : State) (events : List Event) : s.now ≤ (c.run s events).1.now := by
  induction events generalizing s with
  | nil => exact Nat.le_refl _
  | cons e rest ih =>
    have hstep : s.now ≤ (c.step s e).1.now := by
      by_cases hadvance : ∃ nanos, e = .advance nanos
      · obtain ⟨nanos, rfl⟩ := hadvance
        exact Nat.le_add_right _ _
      · rw [now_step fun nanos he => hadvance ⟨nanos, he⟩]
    exact Nat.le_trans hstep (ih _)

/-- A pass that is lost as it starts is one whose deadline cannot be told. -/
theorem Regular.late_of_loses {serial : Nat} (h : Regular c s j)
    (loses : Loses c s key (.begin serial)) : timeLimit ≤ s.now + c.config.timeout.nanos := by
  by_contra hearly
  obtain ⟨r, hr⟩ := List.exists_mem_of_ne_nil _ loses.running
  obtain ⟨hpass, hkey⟩ := List.mem_filter.1 hr
  have hkey : r.key = key := by simpa using hkey
  have hunfinished := running_eq_nil_iff.1 loses.unfinished
  have hunended := ended_eq_nil_iff.1 loses.unended
  -- the pass of the object goes on, or has left its result
  suffices hkept : r ∈ requests (c.step s (.begin serial)).1.passes ∨
      ∃ x ∈ (c.step s (.begin serial)).1.completions, x.request = r by
    rcases hkept with hkept | ⟨x, hx, hrequest⟩
    · exact hunfinished r hkept hkey
    · exact hunended x hx (hrequest ▸ hkey)
  simp only [Controller.step]
  split
  · rename_i r' hfound
    rw [State.begin, if_neg hearly]
    dsimp only
    split
    · -- the pass for a deletion ends with a result
      show r ∈ requests (State.leaveResult c _ r' _).passes ∨ _
      rw [State.leaveResult, requests_endPass]
      by_cases hserial : r.serial = r'.serial
      · obtain ⟨p, hp, rfl⟩ := List.mem_map.1 hpass
        have heq := h.booked.pass_eq_of_serial h.numbered hp (mem_of_pass? hfound) hserial
        refine .inr ⟨⟨r', _⟩, List.mem_append_right _ List.mem_cons_self, ?_⟩
        rw [heq]
      · exact .inl (List.mem_filter.2 ⟨hpass, by simpa using hserial⟩)
    · left
      show r ∈ requests (State.setStage _ _ _).passes
      rw [requests_setStage]
      exact hpass
  · exact .inl hpass

end Controller

/-! ## The law of the start -/

open Controller

/-- What valid settings are enough for, and what not. -/
structure StartLaw (c : Config) : Prop where
  /-- Settings that were read from a text or from a file are valid. -/
  read : (∀ text, Config.parse text = .ok c → c.IsValid) ∧
    ∀ file, Config.load file = .ok c → c.IsValid
  /-- Valid settings are started exactly if there can be that many slots and that long a queue. If
  not, the start breaks off without telling of a violation. -/
  launched : c.IsValid → ∀ clock, Simulation.launch c clock =
    if c.reconcile.Fits then .ok (.start (.ofConfig c) clock) else .error .capacity
  served : c.IsValid → ∀ clock, (Service.start c clock).isOk ↔ c.reconcile.Fits
  /-- In every run, a pass dies as it starts exactly if its deadline cannot be told. -/
  deadline : ∀ clock events r,
    ⟨r, .granted⟩ ∈ ((ofConfig c).run (.initial clock) events).1.passes →
      (Loses (ofConfig c) ((ofConfig c).run (.initial clock) events).1 r.key (.begin r.serial) ↔
        timeLimit ≤ ((ofConfig c).run (.initial clock) events).1.now + c.reconcile.timeout.nanos)
  /-- No pass dies as it starts in a run up to whose end deadlines can be told. -/
  early : ∀ clock before serial after key,
    ((ofConfig c).run (.initial clock) (before ++ .begin serial :: after)).1.now +
        c.reconcile.timeout.nanos < timeLimit →
      ¬Loses (ofConfig c) ((ofConfig c).run (.initial clock) before).1 key (.begin serial)

/-- With valid settings, a start fails exactly for more slots or a longer queue than there can be,
and a pass dies as it starts exactly if its deadline cannot be told. -/
theorem start_law (c : Config) : StartLaw c where
  read := ⟨fun _ => Config.isValid_of_parse, fun _ => Config.isValid_of_load⟩
  launched valid := valid.launch_eq
  served valid clock := by
    rw [Service.start, valid.launch_eq]
    by_cases hfits : c.reconcile.Fits
    · rw [if_pos hfits]
      exact iff_of_true rfl hfits
    · rw [if_neg hfits]
      exact iff_of_false Bool.false_ne_true hfits
  deadline clock events r granted :=
    ⟨(regular_run (ofConfig c) clock events).late_of_loses,
      (regular_run (ofConfig c) clock events).loses_of_begin granted⟩
  early clock before serial after key hearly hloses := by
    have hlate := (regular_run (ofConfig c) clock before).late_of_loses hloses
    have hle := le_now_run (c := ofConfig c) ((ofConfig c).run (.initial clock) before).1
      (.begin serial :: after)
    rw [run_append] at hearly
    have hlate : timeLimit ≤ ((ofConfig c).run (.initial clock) before).1.now +
      c.reconcile.timeout.nanos := hlate
    exact absurd hearly (Nat.not_lt.2 (Nat.le_trans hlate (Nat.add_le_add_right hle _)))

namespace OversizedSettings

def pod : ObjectKey := ⟨"default", "web-0"⟩

def clock : Instant := .ofUnixSeconds 1792281600

/-- The queue is longer by one than it can be. -/
def longQueue : Config :=
  { Config.standard with
    reconcile := { ReconcileConfig.standard with queueCapacity := 2305843009213693952 } }

/-- After the timeout running times cannot be told, whenever a pass starts. -/
def longTimeout : Config :=
  { Config.standard with
    reconcile :=
      { ReconcileConfig.standard with
        timeout := ⟨9223372036854775808 * nanosPerSecond, by decide⟩ } }

/-- A pod changes, and its pass gets a slot. -/
def change : List Event := [.notify (.ofChange pod), .receive]

/-- Settings can be read and be valid, and still the start breaks off, or the first pass dies as it
starts and is lost for good. -/
theorem valid_not_enough :
    Config.parse "[reconcile]\nqueue_capacity = 2305843009213693952\n" = .ok longQueue ∧
      longQueue.IsValid ∧ Simulation.launch longQueue clock = .error .capacity ∧
      Config.parse "[reconcile]\ntimeout = \"9223372036854775808s\"\n" = .ok longTimeout ∧
      longTimeout.IsValid ∧
      Simulation.launch longTimeout clock = .ok (.start (ofConfig longTimeout) clock) ∧
      Loses (ofConfig longTimeout) ((ofConfig longTimeout).run (.initial clock) change).1 pod
        (.begin 0) ∧
      ((ofConfig longTimeout).run (.initial clock) (change ++ [.begin 0])).1.Lost pod := by
  have hqueue : longQueue.IsValid := by decide +kernel
  have htimeout : longTimeout.IsValid := by decide +kernel
  have hgranted : ⟨⟨0, .ofChange pod⟩, .granted⟩ ∈
      ((ofConfig longTimeout).run (.initial clock) change).1.passes := by
    decide +kernel
  have hloses : Loses (ofConfig longTimeout)
      ((ofConfig longTimeout).run (.initial clock) change).1 pod (.begin 0) :=
    (regular_run _ clock change).loses_of_begin hgranted (by decide +kernel)
  refine ⟨?_, hqueue, ?_, ?_, htimeout, ?_, hloses, ?_, ?_, ?_⟩
  · decide +kernel
  · rw [hqueue.launch_eq, if_neg (by decide +kernel)]
  · decide +kernel
  · rw [htimeout.launch_eq, if_pos (by decide +kernel)]
  · decide +kernel
  · decide +kernel
  · decide +kernel

end OversizedSettings

end ClusterVitals
