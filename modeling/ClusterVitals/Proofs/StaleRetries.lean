import ClusterVitals.Proofs.Calm

/-!
# Retries that come after a deletion

After the pass for the deletion of a pod has ended, the tracker knows nothing of the pod until a
change of the pod comes from the queue, or the message of a timer is taken that was armed before the
deletion was through. Then a change from before the deletion is brought up again, and its pass
reports the old restarts of the pod once more.
-/

namespace ClusterVitals.Controller

open State

variable {c : Controller} {key : ObjectKey} {s s' : State} {j es : List Entry}

/-! ## Deletions -/

/-- The messages of the timers of a pod bring up changes. -/
theorem Tended.fired_changed (h : Tended c key s j) (pod : c.IsPod key) (events : List Event)
    {ring : Ring} (hring : .fired ring ∈ (c.run s events).2) (own : ring.notification.key = key) :
    ring.notification.kind = .changed := by
  induction events generalizing s j with
  | nil => exact absurd hring List.not_mem_nil
  | cons e rest ih =>
    rcases List.mem_append.1 hring with hring | hring
    · obtain ⟨r, -, hn, hchanged⟩ := h.fired hring own
      rw [hn]
      exact hchanged
    · exact ih (h.step pod e) hring

/-- What arrives after a deletion are deletions, if nothing else is brought and no message of a
timer is taken. -/
theorem Tended.later_deleted (h : Tended c key s j) (pod : c.IsPod key) {d : Request} {e : Event}
    {events : List Event} (arrives : .scheduled d ∈ (c.step s e).2)
    (received : BringsDeletions key (c.run (c.step s e).1 events).2)
    (untaken : Untaken key (c.run (c.step s e).1 events).2) {r : Request}
    (hr : r ∈ arrivals (j ++ (c.step s e).2 ++ (c.run (c.step s e).1 events).2))
    (hkey : r.key = key) (later : d.serial < r.serial) : r.kind = .deleted := by
  have h₁ := h.step pod e
  have h₂ := h₁.run pod events
  have hone : arrivals (c.step s e).2 = [d] ∧ d.serial = s.ledger.nextSerial := by
    have hd : d ∈ arrivals (c.step s e).2 := List.mem_filterMap.2 ⟨_, arrives, rfl⟩
    rcases (booking_step c s e).arrival with ⟨hnone, -⟩ | ⟨n, hone, -⟩
    · rw [hnone] at hd
      exact absurd hd List.not_mem_nil
    · rw [hone] at hd ⊢
      rw [List.mem_singleton.1 hd]
      exact ⟨rfl, rfl⟩
  rw [arrivals_append, arrivals_append, hone.1] at hr
  rcases List.mem_append.1 hr with hr | hr
  · -- what had arrived, and the deletion itself, arrived no later than the deletion
    rcases List.mem_append.1 hr with hr | hr
    · have hlt := h.regular.numbered.bounded r hr
      rw [← hone.2] at hlt
      omega
    · rw [List.mem_singleton.1 hr] at later
      omega
  · exact received.arrivals untaken (h₁.regular.numbered.taken_part h₂.regular.numbered) hr hkey

/-- A deletion that arrives is all that is started then or held back afterwards. -/
theorem Lane.Moves.eq_of_deletion {lane lane' : Lane} (h : lane.Moves es lane')
    (idle : lane.current = none → lane.held = .empty) {d : Request} (arrives : .scheduled d ∈ es)
    (kind : d.kind = .deleted) {x : Request} (hx : x ∈ lane'.line es) : x = d := by
  rcases h with ⟨-, rfl⟩ | h
  · exact absurd arrives List.not_mem_nil
  · cases h with
    | @enter next held r fresh =>
      obtain rfl : d = r := by simpa using arrives
      obtain rfl : held = .empty := idle rfl
      rcases List.mem_append.1 hx with hx | hx
      · exact List.mem_singleton.1 hx
      · exact absurd hx List.not_mem_nil
    | @hold next cur held r fresh =>
      obtain rfl : d = r := by simpa using arrives
      have hx : x ∈ (held.push d).requests := hx
      rw [held.requests_push_of_deleted kind] at hx
      exact List.mem_singleton.1 hx
    | follow => simp at arrives
    | rest => simp at arrives

/-- If only deletions arrive after a deletion, only deletions are started from then on. -/
theorem Tended.starts_deleted (h : Tended c key s j) {d : Request} {e : Event} {events : List Event}
    (arrives : .scheduled d ∈ (c.step s e).2) (kind : d.kind = .deleted) (ofKey : d.key = key)
    (later : ∀ x ∈ arrivals (c.run (c.step s e).1 events).2, x.key = key → x.kind = .deleted)
    {x : Request} (hx : x ∈ starts (c.run s (e :: events)).2) (hkey : x.key = key) :
    x.kind = .deleted := by
  obtain ⟨lane, hfollows, hhistory⟩ := h.regular.booked key
  obtain ⟨lane₁, hmoves, hfollows₁⟩ := h.regular.booked.step c e hfollows hhistory
  have hhistory₁ : Lane.History (own key (j ++ (c.step s e).2)) lane₁ := by
    rw [own_append]
    exact hmoves.run.history hhistory
  obtain ⟨lane₂, hrun, -⟩ := (h.regular.step e).booked.run c events hfollows₁ hhistory₁
  -- at first the deletion is the only one to be started, and later only what arrives then
  have hfirst {y : Request} (hy : y ∈ lane₁.line (own key (c.step s e).2)) : y.kind = .deleted := by
    have harrives : .scheduled d ∈ own key (c.step s e).2 :=
      List.mem_filter.2 ⟨arrives, by simpa [Entry.lane?] using ofKey⟩
    rw [hmoves.eq_of_deletion hhistory.lined.idle harrives kind hy]
    exact kind
  have hown {es : List Entry} (hmem : x ∈ starts es) : x ∈ starts (own key es) := by
    rw [starts_own]
    exact List.mem_filter.2 ⟨hmem, by simpa using hkey⟩
  rcases List.mem_append.1 (starts_append _ _ ▸ hx : x ∈ starts (c.step s e).2 ++ starts _) with
    hx | hx
  · exact hfirst (List.mem_append_left _ (hown hx))
  · rcases hrun.mem_line (List.mem_append_left _ (hown hx)) with hx | hx
    · exact hfirst (List.mem_append_right _ hx)
    · rw [arrivals_own] at hx
      exact later x (List.mem_filter.1 hx).1 hkey

/-- The message of a timer of an object is taken that was armed before a deletion was through. It is
taken before the end of the pass for the deletion, or it is that of the timer armed then. -/
def TakesStale (c : Controller) (key : ObjectKey) (s : State) (between : List Event) (last : Event)
    (rest : List Event) : Prop :=
  (∃ ring, .fired ring ∈ (c.run s between).2 ∧ ring.notification.key = key) ∨
    TakesArmed key (c.step (c.run s between).1 last).1
      (c.run (c.step (c.run s between).1 last).1 rest).2

/-- What comes of a deletion whose pass has ended: changes of the object arrive after it exactly if
the message of a timer is taken that was armed before it was through. Otherwise no change is started
any more, the tracker knows nothing of the object, and nothing of it is reported. -/
structure DeletionLaw (c : Controller) (key : ObjectKey) (s : State) (arrival : Event)
    (between : List Event) (last : Event) (rest : List Event) : Prop where
  stale_iff : (∃ x ∈ arrivals (c.run (c.step s arrival).1 (between ++ last :: rest)).2,
      x.key = key ∧ x.kind = .changed) ↔ TakesStale c key (c.step s arrival).1 between last rest
  started : ¬TakesStale c key (c.step s arrival).1 between last rest →
    ∀ x ∈ starts (c.run s (arrival :: (between ++ last :: rest))).2, x.key = key → x.kind = .deleted
  forgot : ¬TakesStale c key (c.step s arrival).1 between last rest →
    (c.run s (arrival :: (between ++ last :: rest))).1.vitals.Forgot key
  unreported : ¬TakesStale c key (c.step s arrival).1 between last rest →
    ∀ status, .offer key status ∉
      effects (c.run (c.step (c.run (c.step s arrival).1 between).1 last).1 rest).2

/-- The message of a timer of a pod that is taken makes a change arrive. -/
theorem Tended.change_of_taken (h : Tended c key s j) (pod : c.IsPod key) (events : List Event)
    {ring : Ring} (hring : .fired ring ∈ (c.run s events).2) (ofKey : ring.notification.key = key) :
    ∃ x ∈ arrivals (c.run s events).2, x.key = key ∧ x.kind = .changed := by
  have hchanged := h.fired_changed pod events hring ofKey
  have htaken := h.regular.numbered.taken_part (h.run pod events).regular.numbered
  have hmem : ring.notification ∈ (arrivals (c.run s events).2).map Request.notification := by
    rw [htaken]
    exact mem_intake.2 (.inr ⟨ring, hring, rfl⟩)
  obtain ⟨x, hx, hn⟩ := List.mem_map.1 hmem
  refine ⟨x, hx, ?_, ?_⟩
  · rw [Request.key, hn, ofKey]
  · rw [Request.kind, hn, hchanged]

section

variable {d : Request} {result : PassResult} {arrival last : Event} {between rest : List Event}
  (h : Tended c key s j) (pod : c.IsPod key) (arrives : .scheduled d ∈ (c.step s arrival).2)
  (kind : d.kind = .deleted) (ofKey : d.key = key)
  (ends : .completed d result ∈ (c.step (c.run (c.step s arrival).1 between).1 last).2)
  (received : BringsDeletions key (c.run (c.step s arrival).1 (between ++ last :: rest)).2)

include h pod arrives kind ofKey ends received

/-- Without a stale message, it is calm once a deletion is through, and stays so. -/
theorem Tended.calm_of_not_stale
    (fresh : ¬TakesStale c key (c.step s arrival).1 between last rest) :
    Untaken key (c.run (c.step s arrival).1 (between ++ last :: rest)).2 ∧
      (c.run s (arrival :: (between ++ last :: rest))).1.vitals.Forgot key ∧
      ∀ status, .offer key status ∉
        effects (c.run (c.step (c.run (c.step s arrival).1 between).1 last).1 rest).2 := by
  have hfinal : (c.run s (arrival :: (between ++ last :: rest))).1 =
      (c.run (c.step (c.run (c.step s arrival).1 between).1 last).1 rest).1 := by
    show (c.run (c.step s arrival).1 (between ++ last :: rest)).1 = _
    rw [run_split]
  rw [hfinal]
  rw [run_split] at received ⊢
  have hbetween : Untaken key (c.run (c.step s arrival).1 between).2 := fun ring hring hkey =>
    fresh (.inl ⟨ring, hring, hkey⟩)
  -- the event that takes the end of the pass takes no message
  have hlast : Untaken key (c.step (c.run (c.step s arrival).1 between).1 last).2 := by
    intro ring hring
    have hmem := mem_intake.2 (.inr ⟨ring, hring, rfl⟩)
    rw [intake_of_completed (booking_step c _ last) ends] at hmem
    exact absurd hmem List.not_mem_nil
  have h₂ := (h.step pod arrival).run pod between
  have hcalm := h₂.calm pod ends kind ofKey fun r hr hkey hlt =>
    h.later_deleted pod arrives received.of_append_left.of_append_left hbetween hr hkey hlt
  rcases hcalm.run (h₂.step pod last) pod rest received.of_append_right with
    hstale | ⟨hend, hrest, hoffers⟩
  · exact absurd (.inr hstale) fresh
  · exact ⟨(hbetween.append hlast).append hrest, hend.forgot, hoffers⟩

theorem Tended.deletionLaw : DeletionLaw c key s arrival between last rest := by
  have h₁ := h.step pod arrival
  have htaken := h₁.regular.numbered.taken_part
    (h₁.run pod (between ++ last :: rest)).regular.numbered
  have hcalm := h.calm_of_not_stale pod arrives kind ofKey ends received
  have hdeleted (fresh : ¬TakesStale c key (c.step s arrival).1 between last rest) :
      ∀ x ∈ arrivals (c.run (c.step s arrival).1 (between ++ last :: rest)).2,
        x.key = key → x.kind = .deleted :=
    fun x hx hkey => received.arrivals (hcalm fresh).1 htaken hx hkey
  constructor
  case stale_iff =>
    constructor
    · rintro ⟨x, hx, hkey, hchanged⟩
      by_contra hfresh
      rw [hdeleted hfresh x hx hkey] at hchanged
      cases hchanged
    · -- before the end of the pass or after it, the message makes a change arrive
      rintro (⟨ring, hring, hkey⟩ | ⟨ring, hring, hkey, -⟩)
      · refine h₁.change_of_taken pod (between ++ last :: rest) ?_ hkey
        rw [run_split]
        exact List.mem_append_left _ (List.mem_append_left _ hring)
      · refine h₁.change_of_taken pod (between ++ last :: rest) ?_ hkey
        rw [run_split]
        exact List.mem_append_right _ hring
  case started =>
    exact fun fresh x hx hkey => h.starts_deleted arrives kind ofKey (hdeleted fresh) hx hkey
  case forgot => exact fun fresh => (hcalm fresh).2.1
  case unreported => exact fun fresh => (hcalm fresh).2.2

end

/-! ## The law of retries -/

/-- When the retries of a pod are those of its last outcome, in every run. -/
structure RetryLaw (c : Controller) (clock : Instant) (key : ObjectKey) : Prop where
  /-- The books note failures of the pod while its last pass that has ended failed with an error
  that is worth another try. -/
  failures_iff : ∀ events, (c.run (.initial clock) events).1.ledger.failures.contains key ↔
    ∃ n, LastFailed key (c.run (.initial clock) events).2 n
  /-- A timer is armed for the pod after such a failure only, but for timers that outlive a
  failure. -/
  timersFail_iff : ∀ events, TimersFail (c.run (.initial clock) events).1 key ↔
    (c.run (.initial clock) events).1.phase.isClosed ∨
      ¬Outlived key (c.run (.initial clock) events).2
  /-- The message of a timer of the pod retries its last outcome, but for timers that outlive a
  failure. -/
  retries_iff : ∀ events e ring, .fired ring ∈ (c.step (c.run (.initial clock) events).1 e).2 →
    ring.notification.key = key →
      (LastFailed key (c.run (.initial clock) events).2 ring.notification ↔
        ¬Outlived key (c.run (.initial clock) events).2)
  /-- After a deletion nothing of the pod is brought up again until a change comes from the queue,
  but by timers that were armed before the deletion was through. -/
  deletions : ∀ events arrival between last rest d result,
    .scheduled d ∈ (c.step (c.run (.initial clock) events).1 arrival).2 → d.kind = .deleted →
      d.key = key →
      .completed d result ∈ (c.step (c.run (c.step (c.run (.initial clock) events).1 arrival).1
        between).1 last).2 →
      BringsDeletions key
        (c.run (c.step (c.run (.initial clock) events).1 arrival).1 (between ++ last :: rest)).2 →
      DeletionLaw c key (c.run (.initial clock) events).1 arrival between last rest

/-- The retries of pods are those of their last outcomes, and come to an end with deletions, exactly
as far as no timer outlives the failure that it was armed for. -/
theorem retry_law (c : Controller) (clock : Instant) (key : ObjectKey) (pod : c.IsPod key) :
    RetryLaw c clock key where
  failures_iff events := (tended_run pod clock events).timed.failures_iff
  timersFail_iff events := (tended_run pod clock events).timed.timersFail_iff
  retries_iff events _ _ hring ofKey := (tended_run pod clock events).retries_iff hring ofKey
  deletions events _ _ _ _ _ _ arrives kind ofKey ends received :=
    (tended_run pod clock events).deletionLaw pod arrives kind ofKey ends received

namespace StaleRetry

def pod : ObjectKey := ⟨"default", "web-0"⟩

def clock : Instant := .ofUnixSeconds 1792281600

def controller : Controller := .ofConfig .standard

/-- A restart of a pod is published, a second look at the pod fails, and the pod is deleted. -/
def deletion : List Event :=
  [.change (.putPod ⟨pod, [⟨"nginx", 1, some ⟨"OOMKilled", 137, .ofUnixSeconds 1792281000⟩⟩]⟩),
    .notify (.ofChange pod), .receive, .begin 0, .resume 0 none, .complete,
    .change (.inject ⟨1, none⟩),
    .notify (.ofChange pod), .receive, .begin 1, .resume 1 none, .complete,
    .notify ⟨pod, .deleted⟩, .receive, .begin 2, .complete]

/-- The timer of the second look is due after the deletion. -/
def aftermath : List Event :=
  [.advance 1500000000, .ring 1, .hear, .begin 3, .resume 3 none, .complete]

theorem retry_law_standard : controller.IsPod pod ∧ RetryLaw controller clock pod := by
  have hpod : controller.IsPod pod := by
    show controller.dispatcher.route pod = .podRestart
    decide +kernel
  exact ⟨hpod, retry_law _ _ _ hpod⟩

/-- A timer can outlive the failure that it was armed for. The pass for a deletion has succeeded,
the timer of a failure from before it is still armed, and its message brings up the change again:
the restart of the pod that was deleted is published a second time. -/
theorem retry_outlives_deletion :
    controller.IsPod pod ∧
      ¬TimersFail (controller.run (.initial clock) deletion).1 pod ∧
      (controller.run (.initial clock) deletion).1.vitals.tracker.size = 0 ∧
      starts (controller.run (.initial clock) (deletion ++ aftermath)).2 =
        [⟨0, .ofChange pod⟩, ⟨1, .ofChange pod⟩, ⟨2, ⟨pod, .deleted⟩⟩, ⟨3, .ofChange pod⟩] ∧
      (controller.run (.initial clock) (deletion ++ aftermath)).1.vitals.tracker.size = 1 ∧
      (Call.publications (calls (controller.run (.initial clock)
        (deletion ++ aftermath)).2)).length = 2 := by
  refine ⟨?_, ?_, ?_, ?_, ?_, ?_⟩
  · show controller.dispatcher.route pod = .podRestart
    decide +kernel
  · rw [TimersFail]
    decide +kernel
  · decide +kernel
  · decide +kernel
  · decide +kernel
  · decide +kernel

end StaleRetry

end ClusterVitals.Controller
