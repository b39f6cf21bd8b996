import ClusterVitals.Proofs.Arrivals

/-!
# Coalescing loses no deletion

Notifications for an object that come in while its pass is under way are held back, and a later one
takes the place of an earlier one. Requests bear their serials in the order in which they arrive.
`Coalesced` says what then holds of the requests of an object: passes start in the order of arrival,
a deletion is through before a later change starts, and none is dropped but for a later deletion.
-/

namespace ClusterVitals.Controller

/-- The requests of an object that are held back. -/
def State.held (s : State) (key : ObjectKey) : Pending := s.ledger.pending[key]?.getD .empty

/-- What holds of the entries of the lane of an object, up to a state. -/
structure Coalesced (s : State) (key : ObjectKey) (j : List Entry) : Prop where
  /-- Serials tell the order of arrival. -/
  numbered : (arrivals j).Pairwise (·.serial < ·.serial)
  /-- Passes start in the order of arrival, and for what arrived only. -/
  arrived : (starts j).Sublist (arrivals j)
  increasing : (starts j).Pairwise (·.serial < ·.serial)
  /-- Before a change starts, an earlier deletion or one that came in between is through. -/
  deletion_first : ∀ before x after d, j = before ++ .started x :: after → x.kind = .changed →
    d ∈ arrivals j → d.kind = .deleted → d.serial < x.serial →
      ∃ d' ∈ arrivals j, d'.kind = .deleted ∧ d.serial ≤ d'.serial ∧ d'.serial < x.serial ∧
        d' ∈ starts before ∧ d' ∈ finishes before
  /-- No deletion is lost but to a later one that arrived before it could start. -/
  deletions_kept : ∀ d ∈ arrivals j, d.kind = .deleted →
    d ∈ starts j ∨ (s.held key).deleted = some d ∨ Lane.Superseded d j
  /-- With no pass under way nothing is held back, and the last arrival was started. -/
  settled : ¬s.ledger.inFlight.contains key →
    s.ledger.pending[key]? = none ∧ ∀ r, (arrivals j).getLast? = some r → r ∈ starts j

/-- What a lane went through, told of the state that follows it. -/
theorem State.Follows.coalesced {s : State} {key : ObjectKey} {lane : Lane} {j : List Entry}
    (h : s.Follows key lane) (history : Lane.History j lane) : Coalesced s key j := by
  have hstarts : (starts j).Sublist (lane.line j) := List.sublist_append_left _ _
  constructor
  case numbered => exact history.lined.numbered
  case arrived => exact hstarts.trans history.lined.sublist
  case increasing => exact history.lined.pairwise.sublist hstarts
  case deletion_first =>
    intro before x after d hj hx hd hdeleted hlt
    exact history.deletion_first hj hx hd hdeleted hlt
  case deletions_kept =>
    intro d hd hdeleted
    rw [held, h.books.getD_pending]
    exact history.kept d hd hdeleted
  case settled =>
    intro hidle
    have hcurrent : lane.current = none := by
      rw [h.books.busy] at hidle
      simpa using hidle
    have hheld : lane.held = .empty := history.lined.idle hcurrent
    refine ⟨?_, ?_⟩
    · rw [h.books.held, hheld]
      rfl
    · -- the line is what was started, and it ends with the last arrival
      intro r hr
      have hline : lane.line j = starts j := by
        rw [Lane.line, hheld]
        exact List.append_nil _
      rw [← history.lined.newest, hline] at hr
      exact List.mem_of_getLast? hr

/-- A change that is held back when a deletion arrives is not started from then on, nor was it
before. -/
theorem Booked.never_started {s : State} {j : List Entry} (h : Booked s j) (c : Controller)
    (e : Event) (rest : List Event) {key : ObjectKey} {d x : Request}
    (hx : (s.held key).changed = some x) (arrives : .scheduled d ∈ own key (c.step s e).2)
    (hd : d.kind = .deleted) : x ∉ starts (own key (j ++ (c.run s (e :: rest)).2)) := by
  obtain ⟨lane, hfollows, hhistory⟩ := h key
  obtain ⟨lane', hmoves, hfollows'⟩ := h.step c e hfollows hhistory
  have hhistory' : Lane.History (own key (j ++ (c.step s e).2)) lane' := by
    rw [own_append]
    exact hmoves.run.history hhistory
  obtain ⟨last, hrun, -⟩ := (h.keeps c e).run c rest hfollows' hhistory'
  have hheld : lane.held.changed = some x := by
    rw [← hfollows.books.getD_pending]
    exact hx
  have hentries : own key (j ++ (c.run s (e :: rest)).2) =
      own key j ++ (own key (c.step s e).2 ++ own key (c.run (c.step s e).1 rest).2) := by
    rw [← own_append, ← own_append]
    rfl
  rw [hentries]
  rcases hmoves with ⟨-, hnone⟩ | hstep
  · rw [hnone] at arrives
    exact absurd arrives List.not_mem_nil
  · generalize own key (c.step s e).2 = es at arrives hstep ⊢
    cases hstep with
    | @enter next held r fresh =>
      -- nothing is held with no pass under way
      rw [hhistory.lined.idle rfl] at hheld
      cases hheld
    | @hold next cur held r fresh =>
      obtain rfl : d = r := by simpa using arrives
      exact hhistory.never_started hheld hd fresh hrun
    | follow => simp at arrives
    | rest => simp at arrives

/-- The requests of an object that arrive are those that the queue and the messages of timers bring
for it. -/
theorem Numbered.taken_own {s : State} {j : List Entry} (h : Numbered s j) (key : ObjectKey) :
    (arrivals (own key j)).map Request.notification = (intake j).filter (·.key = key) := by
  rw [arrivals_own, ← h.taken, List.filter_map]
  rfl

/-- In every run, whatever order notifications, ends of passes and messages of timers come in, the
requests that arrive for each object are coalesced, and a change that is held back when a deletion
arrives is never started. -/
theorem run_coalesced (c : Controller) (clock : Instant) (events : List Event) (key : ObjectKey) :
    (arrivals (own key (c.run (.initial clock) events).2)).map Request.notification =
        (intake (c.run (.initial clock) events).2).filter (·.key = key) ∧
      Coalesced (c.run (.initial clock) events).1 key
        (own key (c.run (.initial clock) events).2) ∧
      ∀ first e rest, events = first ++ e :: rest →
        ∀ d x, ((c.run (.initial clock) first).1.held key).changed = some x →
          .scheduled d ∈ own key (c.step (c.run (.initial clock) first).1 e).2 →
          d.kind = .deleted → x ∉ starts (own key (c.run (.initial clock) events).2) := by
  refine ⟨(numbered_run c clock events).taken_own key, ?_, ?_⟩
  · obtain ⟨lane, hfollows, hhistory⟩ := booked_run c clock events key
    exact hfollows.coalesced hhistory
  · rintro first e rest rfl d x hx harrives hd
    have hnever := (booked_run c clock first).never_started c e rest hx harrives hd
    rwa [run_append]

end ClusterVitals.Controller
