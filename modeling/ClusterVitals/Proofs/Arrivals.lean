import ClusterVitals.Proofs.Bookings

/-!
# What arrives, and under which serials

Requests come from two sides: the controller takes a notification of the queue, or the message of a
timer. Each is scheduled as one request with the next serial, so no serial is given twice, and the
passes that go on can be told by their serials.
-/

namespace ClusterVitals.Controller

open State

/-! ## Arrivals -/

def Entry.intake? : Entry → Option Notification
  | .received n => some n
  | .fired ring => some ring.notification
  | _ => none

/-- The notifications that were taken from the queue, and those of the messages of timers that were
taken, in order. -/
def intake (j : List Entry) : List Notification := j.filterMap Entry.intake?

theorem intake_append (j k : List Entry) : intake (j ++ k) = intake j ++ intake k :=
  List.filterMap_append

/-- What is taken is scheduled, under increasing serials, and the serials from the next one on are
free. -/
structure Numbered (s : State) (j : List Entry) : Prop where
  taken : (arrivals j).map Request.notification = intake j
  increasing : (arrivals j).Pairwise (·.serial < ·.serial)
  bounded : ∀ r ∈ arrivals j, r.serial < s.ledger.nextSerial

theorem arrivals_news (j : List Entry) : arrivals (news j) = arrivals j := by
  refine filterMap_news ?_ j
  intro e he
  cases e with
  | scheduled r => cases he
  | _ => rfl

theorem intake_news (j : List Entry) : intake (news j) = intake j := by
  refine filterMap_news ?_ j
  intro e he
  cases e with
  | received n => cases he
  | fired ring => cases he
  | _ => rfl

/-- A turn takes no notification, or schedules the one that it takes under the next serial. -/
theorem Booking.arrival {s s' : State} {es : List Entry} (h : Booking s (s', es)) :
    arrivals es = [] ∧ intake es = [] ∧ s'.ledger.nextSerial = s.ledger.nextSerial ∨
      ∃ n, arrivals es = [⟨s.ledger.nextSerial, n⟩] ∧ intake es = [n] ∧
        s'.ledger.nextSerial = s.ledger.nextSerial + 1 := by
  have hserial {notes : Notes} (h : s'.ledger.notes = notes) :
      s'.ledger.nextSerial = notes.nextSerial := congrArg Notes.nextSerial h
  -- what arrives and what is taken are news, and a booking says which news there are
  rw [← arrivals_news, ← intake_news]
  cases h with
  | quiet news notes =>
    rw [news]
    exact .inl ⟨rfl, rfl, hserial notes⟩
  | receive n news notes =>
    rw [news]
    exact .inr ⟨n, rfl, rfl, hserial notes⟩
  | fire ring left current news notes =>
    rw [news]
    exact .inr ⟨ring.notification, rfl, rfl, hserial notes⟩
  | complete e left running news notes =>
    rw [news]
    exact .inl ⟨rfl, rfl, (hserial notes).trans (Notes.nextSerial_settle _ _ _)⟩
  | close notes => exact .inl ⟨rfl, rfl, hserial notes⟩

theorem Numbered.keeps {s s' : State} {j es : List Entry} (h : Numbered s j)
    (booking : Booking s (s', es)) : Numbered s' (j ++ es) := by
  rcases booking.arrival with ⟨hnone, hquiet, hserial⟩ | ⟨n, hone, htaken, hserial⟩
  · have harrivals : arrivals (j ++ es) = arrivals j := by
      rw [arrivals_append, hnone, List.append_nil]
    constructor
    case taken => rw [harrivals, intake_append, hquiet, List.append_nil, h.taken]
    case increasing => exact harrivals ▸ h.increasing
    case bounded => rw [harrivals, hserial]; exact h.bounded
  · have harrivals : arrivals (j ++ es) = arrivals j ++ [⟨s.ledger.nextSerial, n⟩] := by
      rw [arrivals_append, hone]
    constructor
    case taken =>
      rw [harrivals, intake_append, htaken, List.map_append, h.taken]
      rfl
    case increasing =>
      -- the serials given so far are all below the next one
      rw [harrivals]
      refine List.pairwise_append.2 ⟨h.increasing, List.pairwise_singleton _ _, ?_⟩
      intro x hx y hy
      rw [List.mem_singleton.1 hy]
      exact h.bounded x hx
    case bounded =>
      intro x hx
      rw [harrivals] at hx
      rw [hserial]
      rcases List.mem_append.1 hx with hx | hx
      · have hbound := h.bounded x hx
        omega
      · rw [List.mem_singleton.1 hx]
        exact Nat.lt_succ_self _

theorem Numbered.step {s : State} {j : List Entry} (h : Numbered s j) (c : Controller) (e : Event) :
    Numbered (c.step s e).1 (j ++ (c.step s e).2) :=
  h.keeps (booking_step c s e)

theorem numbered_initial (clock : Instant) : Numbered (.initial clock) [] :=
  ⟨rfl, .nil, by simp [arrivals]⟩

theorem numbered_run (c : Controller) (clock : Instant) (events : List Event) :
    Numbered (c.run (.initial clock) events).1 (c.run (.initial clock) events).2 :=
  run_of_nil c Numbered (fun _ _ e h => h.step c e) _ events (numbered_initial clock)

/-- A serial is given once. -/
theorem Numbered.eq_of_serial {s : State} {j : List Entry} (h : Numbered s j) {x y : Request}
    (hx : x ∈ arrivals j) (hy : y ∈ arrivals j) (heq : x.serial = y.serial) : x = y := by
  -- of two requests, one comes before the other or they are the same
  have hforward : (arrivals j).Pairwise fun x y => x.serial = y.serial → x = y :=
    h.increasing.imp fun hlt heq => absurd heq (Nat.ne_of_lt hlt)
  have hbackward : (arrivals j).Pairwise (flip fun x y => x.serial = y.serial → x = y) :=
    h.increasing.imp fun hlt heq => absurd heq (Nat.ne_of_gt hlt)
  exact hforward.forall_of_forall_of_flip (fun _ _ _ => rfl) hbackward hx hy heq

/-! ## Passes are told apart by their serials -/

/-- A request whose pass is under way has arrived. -/
theorem Booked.mem_arrivals {s : State} {j : List Entry} (h : Booked s j) {r : Request}
    (hr : r ∈ requests s.passes) : r ∈ arrivals j := by
  obtain ⟨lane, hfollows, hhistory⟩ := h r.key
  have hrunning : r ∈ s.running r.key := List.mem_filter.2 ⟨hr, by simp⟩
  have hcurrent := hfollows.current_of_mem (List.mem_append_right _ hrunning)
  have hstarted : r ∈ starts (own r.key j) := by
    rw [hhistory.serialized.open_eq, hcurrent]
    exact List.mem_append_right _ (List.mem_singleton_self r)
  have harrived := hhistory.lined.mem_arrivals (List.mem_append_left _ hstarted)
  rw [arrivals_own] at harrived
  exact (List.mem_filter.1 harrived).1

/-- A request has one pass. -/
theorem Booked.pass_ext {s : State} {j : List Entry} (h : Booked s j) {p q : Pass}
    (hp : p ∈ s.passes) (hq : q ∈ s.passes) (heq : p.request = q.request) : p = q := by
  obtain ⟨lane, hfollows, -⟩ := h q.request.key
  have hrunning : q.request ∈ s.running q.request.key :=
    List.mem_filter.2 ⟨List.mem_map_of_mem hq, by simp⟩
  -- the passes of the object are one
  have hone := (hfollows.of_mem_running hrunning).2
  rw [State.running, requests, List.filter_map, List.map_eq_singleton_iff] at hone
  obtain ⟨x, hx, -⟩ := hone
  have hmem {y : Pass} (hy : y ∈ s.passes) (hkey : y.request = q.request) : y = x := by
    refine List.mem_singleton.1 (hx ▸ List.mem_filter.2 ⟨hy, ?_⟩)
    simp [hkey]
  rw [hmem hp heq, hmem hq rfl]

/-- A serial has one pass. -/
theorem Booked.pass_eq_of_serial {s : State} {j : List Entry} (h : Booked s j)
    (numbered : Numbered s j) {p q : Pass} (hp : p ∈ s.passes) (hq : q ∈ s.passes)
    (heq : p.request.serial = q.request.serial) : p = q :=
  h.pass_ext hp hq <| numbered.eq_of_serial (h.mem_arrivals (List.mem_map_of_mem hp))
    (h.mem_arrivals (List.mem_map_of_mem hq)) heq

end ClusterVitals.Controller
