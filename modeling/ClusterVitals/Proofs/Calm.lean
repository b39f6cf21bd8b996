import ClusterVitals.Proofs.Timers

/-!
# Pods that are forgotten

Once the pass for the deletion of a pod has ended, the tracker knows nothing of the pod. It stays so
while nothing but deletions of the pod is under way or held back. `Calm.run` says that this is until
a change of the pod comes from the queue, or the message of the timer is taken that was armed.
-/

namespace ClusterVitals.Controller

open State

variable {c : Controller} {key : ObjectKey} {s s' : State} {j es : List Entry}

/-! ## What a lane has to do -/

/-- The requests of a lane that are under way or held back. -/
def Lane.unfinished (lane : Lane) : List Request := lane.current.toList ++ lane.held.requests

theorem Lane.Moves.mem_unfinished {lane lane' : Lane} (h : lane.Moves es lane') {r : Request}
    (hr : r ∈ lane'.unfinished) : r ∈ lane.unfinished ∨ r ∈ arrivals es := by
  rcases h with ⟨rfl, rfl⟩ | h
  · exact .inl hr
  · cases h with
    | @enter next held x fresh =>
      rcases List.mem_append.1 hr with hr | hr
      · exact .inr hr
      · exact .inl (List.mem_append_right _ hr)
    | @hold next cur held x fresh =>
      rcases List.mem_append.1 hr with hr | hr
      · exact .inl (List.mem_append_left _ hr)
      · rcases Pending.mem_requests_push hr with hr | rfl
        · exact .inl (List.mem_append_right _ hr)
        · exact .inr (List.mem_singleton_self r)
    | @follow next cur x held rest result pop =>
      have hr : r ∈ x :: rest.requests := hr
      rw [← Pending.requests_of_pop pop] at hr
      exact .inl (List.mem_append_right _ hr)
    | rest => exact absurd hr List.not_mem_nil

/-- What is unfinished arrived after all that has ended. -/
theorem Lane.History.lt_of_mem_unfinished {lane : Lane} (h : Lane.History j lane) {d r : Request}
    (hd : d ∈ finishes j) (hr : r ∈ lane.unfinished) : d.serial < r.serial := by
  -- the line is what has ended, and then what is unfinished
  have hpairwise := h.lined.pairwise
  rw [Lane.line, h.serialized.open_eq, List.append_assoc] at hpairwise
  exact (List.pairwise_append.1 hpairwise).2.2 d hd r hr

theorem Lane.History.mem_arrivals_of_unfinished {lane : Lane} (h : Lane.History j lane)
    {r : Request} (hr : r ∈ lane.unfinished) : r ∈ arrivals j := by
  refine h.lined.mem_arrivals ?_
  rw [Lane.line, h.serialized.open_eq, List.append_assoc]
  exact List.mem_append_right _ hr

/-! ## Calm -/

/-- Nothing but deletions of an object is under way or held back, and the tracker knows nothing of
it. -/
structure Calm (key : ObjectKey) (s : State) (j : List Entry) : Prop where
  lane : ∃ lane : Lane, s.Follows key lane ∧ Lane.History (own key j) lane ∧
    ∀ r ∈ lane.unfinished, r.kind = .deleted
  forgot : s.vitals.Forgot key

theorem Calm.deleted_of_task (h : Calm key s j) {r : Request}
    (hr : r ∈ s.ended key ++ s.running key) : r.kind = .deleted := by
  obtain ⟨lane, hfollows, -, hdeleted⟩ := h.lane
  refine hdeleted r (List.mem_append_left _ ?_)
  rw [hfollows.current_of_mem hr]
  exact List.mem_singleton_self r

/-- While it is calm, the pod is not offered to the tracker. -/
theorem Calm.not_offered (h : Calm key s j) (offers : OffersOf s es) (status : ContainerStatus) :
    .offer key status ∉ effects es := by
  intro hmem
  obtain ⟨r, hr, hkey, hchanged⟩ := offers key status hmem
  have hrunning : r ∈ s.running key := List.mem_filter.2 ⟨hr, by simpa using hkey⟩
  rw [h.deleted_of_task (List.mem_append_right _ hrunning)] at hchanged
  cases hchanged

theorem Calm.step (h : Calm key s j) (regular : Regular c s j) (e : Event)
    (deletions : ∀ r ∈ arrivals (c.step s e).2, r.key = key → r.kind = .deleted) :
    Calm key (c.step s e).1 (j ++ (c.step s e).2) := by
  obtain ⟨lane, hfollows, hhistory, hdeleted⟩ := h.lane
  obtain ⟨lane', hmoves, hfollows'⟩ := regular.booked.step c e hfollows hhistory
  refine ⟨⟨lane', hfollows', ?_, ?_⟩, ?_⟩
  · rw [own_append]
    exact hmoves.run.history hhistory
  · intro r hr
    rcases hmoves.mem_unfinished hr with hr | hr
    · exact hdeleted r hr
    · rw [arrivals_own] at hr
      obtain ⟨hmem, hkey⟩ := List.mem_filter.1 hr
      exact deletions r hmem (by simpa using hkey)
  · rw [show (c.step s e).1.vitals = _ from applies_step s e]
    exact h.forgot.applyAll (h.not_offered (regular.offers e))

/-- No message of a timer of an object is taken. -/
def Untaken (key : ObjectKey) (es : List Entry) : Prop :=
  ∀ ring, .fired ring ∈ es → ring.notification.key ≠ key

theorem Untaken.append {k : List Entry} (h : Untaken key es) (h' : Untaken key k) :
    Untaken key (es ++ k) := by
  intro ring hring
  rcases List.mem_append.1 hring with hring | hring
  · exact h ring hring
  · exact h' ring hring

/-- While it is calm, passes of the pod arm no timer. -/
theorem Calm.wakeUp?_eq_none (h : Calm key s j) (regular : Regular c s j) (pod : c.IsPod key)
    {e : Completion} (left : e ∈ s.completions) (hkey : e.request.key = key) :
    wakeUp? e.request e.result = none := by
  have hended : e.request ∈ s.ended key :=
    List.mem_filter.2 ⟨List.mem_map_of_mem left, by simpa using hkey⟩
  have hdeleted := h.deleted_of_task (List.mem_append_left _ hended)
  rw [(regular.orderly.ends e left (hkey ▸ pod)).deleted hdeleted]
  rfl

/-- While it is calm, no timer is armed for the pod. -/
theorem Calm.timer (h : Calm key s j) (regular : Regular c s j) (pod : c.IsPod key)
    (booking : Booking s (s', es)) (untaken : Untaken key es) {generation : Nat}
    (armed : s'.ledger.timers[key]? = some generation) :
    s.ledger.timers[key]? = some generation := by
  have htimers {notes : Notes} (h : s'.ledger.notes = notes) : s'.ledger.timers = notes.timers :=
    congrArg Notes.timers h
  cases booking with
  | quiet news notes =>
    rw [htimers notes] at armed
    exact armed
  | receive n news notes =>
    rw [htimers notes] at armed
    exact armed
  | fire ring left current news notes =>
    have hring : .fired ring ∈ Controller.news es := by
      rw [news]
      exact List.mem_cons_self
    -- the timer of another object is forgotten
    have hother := untaken ring (mem_news.1 hring).1
    rw [htimers notes] at armed
    have armed : (s.ledger.timers.erase ring.notification.key)[key]? = some generation := armed
    rw [Std.ExtTreeMap.getElem?_erase, if_neg (by simpa using hother)] at armed
    exact armed
  | complete e left running news notes =>
    have hasleep : ¬(e.request.key = key ∧ (wakeUp? e.request e.result).isSome) := by
      rintro ⟨hkey, hwake⟩
      rw [h.wakeUp?_eq_none regular pod left hkey] at hwake
      cases hwake
    rw [htimers notes, Notes.getElem?_timers_settle, if_neg hasleep] at armed
    exact armed
  | close notes =>
    rw [htimers notes] at armed
    simp at armed

theorem mem_intake {n : Notification} :
    n ∈ intake es ↔ .received n ∈ es ∨ ∃ ring, .fired ring ∈ es ∧ ring.notification = n := by
  rw [intake, List.mem_filterMap]
  constructor
  · rintro ⟨e, he, hn⟩
    cases e with
    | received n' =>
      obtain rfl := Option.some.inj hn
      exact .inl he
    | fired ring => exact .inr ⟨ring, he, Option.some.inj hn⟩
    | _ => cases hn
  · rintro (hmem | ⟨ring, hmem, rfl⟩)
    · exact ⟨.received n, hmem, rfl⟩
    · exact ⟨.fired ring, hmem, rfl⟩

/-- In a part of a run, what is taken is what is scheduled. -/
theorem Numbered.taken_part (h : Numbered s j) (h' : Numbered s' (j ++ es)) :
    (arrivals es).map Request.notification = intake es := by
  have htaken := h'.taken
  rw [arrivals_append, intake_append, List.map_append, h.taken] at htaken
  exact List.append_cancel_left htaken

/-- Entries bring deletions of an object only. -/
def BringsDeletions (key : ObjectKey) (es : List Entry) : Prop :=
  ∀ n, .received n ∈ es → n.key = key → n.kind = .deleted

theorem BringsDeletions.of_append_left {k : List Entry} (h : BringsDeletions key (es ++ k)) :
    BringsDeletions key es := fun n hn => h n (List.mem_append_left _ hn)

theorem BringsDeletions.of_append_right {k : List Entry} (h : BringsDeletions key (es ++ k)) :
    BringsDeletions key k := fun n hn => h n (List.mem_append_right _ hn)

/-- Where only deletions are brought and no message of a timer is taken, only deletions arrive. -/
theorem BringsDeletions.arrivals (h : BringsDeletions key es) (untaken : Untaken key es)
    (taken : (arrivals es).map Request.notification = intake es) {r : Request}
    (hr : r ∈ arrivals es) (own : r.key = key) : r.kind = .deleted := by
  have hmem : r.notification ∈ intake es := by
    rw [← taken]
    exact List.mem_map_of_mem hr
  rcases mem_intake.1 hmem with hreceived | ⟨ring, hring, hn⟩
  · exact h r.notification hreceived own
  · exact absurd (hn ▸ own : ring.notification.key = key) (untaken ring hring)

/-- The message of the timer of an object is taken that is armed in a state. -/
def TakesArmed (key : ObjectKey) (s : State) (es : List Entry) : Prop :=
  ∃ ring, .fired ring ∈ es ∧ ring.notification.key = key ∧
    s.ledger.timers[key]? = some ring.generation

/-- An event that brings no change leaves it calm, or takes the message of the timer. -/
theorem Calm.advance (h : Calm key s j) (tended : Tended c key s j) (pod : c.IsPod key) (e : Event)
    (received : BringsDeletions key (c.step s e).2) :
    TakesArmed key s (c.step s e).2 ∨
      Calm key (c.step s e).1 (j ++ (c.step s e).2) ∧ Untaken key (c.step s e).2 := by
  by_cases huntaken : Untaken key (c.step s e).2
  · have htaken := tended.regular.numbered.taken_part (tended.step pod e).regular.numbered
    refine .inr ⟨h.step tended.regular e ?_, huntaken⟩
    intro r hr hkey
    exact received.arrivals huntaken htaken hr hkey
  · obtain ⟨ring, hring, hkey⟩ : ∃ ring, .fired ring ∈ (c.step s e).2 ∧
        ring.notification.key = key := by
      by_contra hnone
      exact huntaken fun ring hring hkey => hnone ⟨ring, hring, hkey⟩
    refine .inl ⟨ring, hring, hkey, ?_⟩
    rw [← hkey]
    exact ((booking_step c s e).fired hring).2.1

/-- It stays calm until a change comes from the queue, or the message of the timer is taken that was
armed. -/
theorem Calm.run (h : Calm key s j) (tended : Tended c key s j) (pod : c.IsPod key)
    (events : List Event) (received : BringsDeletions key (c.run s events).2) :
    TakesArmed key s (c.run s events).2 ∨
      Calm key (c.run s events).1 (j ++ (c.run s events).2) ∧ Untaken key (c.run s events).2 ∧
        ∀ status, .offer key status ∉ effects (c.run s events).2 := by
  -- on the events: each leaves it calm, and what is armed after it was armed before
  induction events generalizing s j with
  | nil =>
    refine .inr ⟨?_, fun ring hring => absurd hring List.not_mem_nil,
      fun status hmem => absurd hmem List.not_mem_nil⟩
    rw [show (c.run s []).2 = [] from rfl, List.append_nil]
    exact h
  | cons e rest ih =>
    have hentries : (c.run s (e :: rest)).2 = (c.step s e).2 ++ (c.run (c.step s e).1 rest).2 := rfl
    rw [hentries] at received ⊢
    rcases h.advance tended pod e received.of_append_left with ⟨ring, hring, harmed⟩ |
        ⟨hcalm, huntaken⟩
    · exact .inl ⟨ring, List.mem_append_left _ hring, harmed⟩
    · rcases ih hcalm (tended.step pod e) received.of_append_right with
        ⟨ring, hring, hkey, harmed⟩ | ⟨hlast, hrest, hoffers⟩
      · have hbefore := h.timer tended.regular pod (booking_step c s e) huntaken harmed
        exact .inl ⟨ring, List.mem_append_right _ hring, hkey, hbefore⟩
      · rw [← List.append_assoc, effects_append]
        refine .inr ⟨hlast, huntaken.append hrest, ?_⟩
        intro status hmem
        rcases List.mem_append.1 hmem with hmem | hmem
        · exact h.not_offered (tended.regular.offers e) status hmem
        · exact hoffers status hmem

/-! ## After a deletion -/

/-- What is taken when the end of a pass is. -/
theorem Booking.completed (h : Booking s (s', es)) {r : Request} {result : PassResult}
    (hr : .completed r result ∈ es) :
    (∃ e ∈ s.completions, e.request = r) ∧ news es = [.completed r result] := by
  have hnews : .completed r result ∈ news es := mem_news.2 ⟨hr, rfl⟩
  cases h with
  | complete e left running news =>
    rw [news] at hnews ⊢
    obtain ⟨rfl, rfl⟩ := Entry.completed.inj (List.mem_singleton.1 hnews)
    exact ⟨⟨e, left, rfl⟩, rfl⟩
  | quiet news => rw [news] at hnews; cases hnews
  | receive n news => simp [news] at hnews
  | fire ring left current news => simp [news] at hnews
  | close => cases hr

/-- Nothing is taken from the queue or from a timer when the end of a pass is taken. -/
theorem intake_of_completed (h : Booking s (s', es)) {r : Request} {result : PassResult}
    (hr : .completed r result ∈ es) : intake es = [] := by
  rw [← intake_news, (h.completed hr).2]
  rfl

/-- Once the pass for a deletion has ended, it is calm if nothing but deletions arrived after it. -/
theorem Tended.calm (h : Tended c key s j) (pod : c.IsPod key) {d : Request} {result : PassResult}
    {e : Event} (ends : .completed d result ∈ (c.step s e).2) (kind : d.kind = .deleted)
    (ofKey : d.key = key)
    (later : ∀ r ∈ arrivals j, r.key = key → d.serial < r.serial → r.kind = .deleted) :
    Calm key (c.step s e).1 (j ++ (c.step s e).2) := by
  have hbooking := booking_step c s e
  obtain ⟨⟨x, hx, rfl⟩, hnews⟩ := hbooking.completed ends
  have hnone : arrivals (c.step s e).2 = [] := by
    rw [← arrivals_news, hnews]
    rfl
  constructor
  case lane =>
    obtain ⟨lane, hfollows, hhistory⟩ := (h.regular.step e).booked key
    refine ⟨lane, hfollows, hhistory, ?_⟩
    intro r hr
    -- what is unfinished arrived after the deletion, which has ended
    have hdone : x.request ∈ finishes (own key (j ++ (c.step s e).2)) := by
      refine List.mem_filterMap.2 ⟨.completed x.request result, List.mem_filter.2 ⟨?_, ?_⟩, rfl⟩
      · exact List.mem_append_right _ ends
      · simpa [Entry.lane?] using ofKey
    have harrived := hhistory.mem_arrivals_of_unfinished hr
    rw [arrivals_own, arrivals_append, hnone, List.append_nil] at harrived
    obtain ⟨hmem, hkey⟩ := List.mem_filter.1 harrived
    exact later r hmem (by simpa using hkey) (hhistory.lt_of_mem_unfinished hdone hr)
  case forgot =>
    have hforgot := h.regular.orderly.forgotten x hx (ofKey ▸ pod) kind
    rw [show (c.step s e).1.vitals = _ from applies_step s e, ← ofKey]
    refine hforgot.applyAll ?_
    intro status hmem
    obtain ⟨r, hr, hkey, -⟩ := h.regular.offers e _ status hmem
    exact h.regular.booked.alone hr x hx hkey.symm

end ClusterVitals.Controller
