import ClusterVitals.Proofs.Streaks

/-!
# The timer of an object in a turn

A turn leaves the timer of an object alone, or the controller forgets it, or its message is taken,
or the end of a pass of the object is. A timer is armed for an object where the end of a pass of it
is taken, and nowhere else. While the controller is open, an object whose last pass asked for a
timer has one as long as it is idle.
-/

namespace ClusterVitals.Controller

open State Ledger

variable {c : Controller} {key : ObjectKey} {s s' : State} {j es : List Entry}

/-! ## The timers of an object -/

/-- The timers that were armed for an object, in order. -/
def armingsOf (key : ObjectKey) (j : List Entry) : List Timer := (armings j).filter (·.key = key)

/-- The messages of timers of an object that were taken and not passed over, in order. -/
def firingsOf (key : ObjectKey) (j : List Entry) : List Ring :=
  (firings j).filter (·.notification.key = key)

theorem armingsOf_append (key : ObjectKey) (j k : List Entry) :
    armingsOf key (j ++ k) = armingsOf key j ++ armingsOf key k := by
  rw [armingsOf, armings_append, List.filter_append]
  rfl

theorem firingsOf_append (key : ObjectKey) (j k : List Entry) :
    firingsOf key (j ++ k) = firingsOf key j ++ firingsOf key k := by
  rw [firingsOf, firings_append, List.filter_append]
  rfl

theorem firings_news (j : List Entry) : firings (news j) = firings j := by
  refine filterMap_news ?_ j
  intro e he
  cases e with
  | fired ring => cases he
  | _ => rfl

theorem arrivals_own_news (key : ObjectKey) (j : List Entry) :
    arrivals (own key j) = (arrivals (news j)).filter (·.key = key) := by
  rw [arrivals_own, arrivals_news]

/-- Nothing is taken from the queue for an object. -/
def Unreceived (key : ObjectKey) (es : List Entry) : Prop := ∀ n, .received n ∈ es → n.key ≠ key

/-- What a turn does about the timer of an object: nothing, or the controller forgets it, or its
message is taken, or the end of a pass of the object is. -/
inductive TimerMove (key : ObjectKey) (s s' : State) (es : List Entry) : Prop where
  | stays (unended : endings key es = []) (unheard : firingsOf key es = [])
      (unarrived : Unreceived key es → arrivals (own key es) = [])
      (timer : s'.ledger.timers[key]? = s.ledger.timers[key]?)
  | forgotten (unended : endings key es = []) (unheard : firingsOf key es = [])
      (unarrived : arrivals (own key es) = []) (closed : s'.phase.isClosed)
      (timer : s'.ledger.timers[key]? = none)
  | heard {ring : Ring} (ofKey : ring.notification.key = key) (left : ring ∈ s.messages)
      (current : s.ledger.timers[key]? = some ring.generation) (unended : endings key es = [])
      (heard : firingsOf key es = [ring])
      (arrived : arrivals (own key es) = [⟨s.ledger.nextSerial, ring.notification⟩])
      (timer : s'.ledger.timers[key]? = none)
  | ended {x : Completion} (left : x ∈ s.completions) (ofKey : x.request.key = key)
      (ending : endings key es = [x]) (unheard : firingsOf key es = [])
      (unarrived : arrivals (own key es) = [])
      (timer : s'.ledger.timers[key]? =
        if (wakeUp? x.request x.result).isSome then some (s.ledger.lastGeneration + 1)
        else s.ledger.timers[key]?)

theorem Booking.timerMove (h : Booking s (s', es)) (key : ObjectKey) : TimerMove key s s' es := by
  have htimers {notes : Notes} (h : s'.ledger.notes = notes) :
      s'.ledger.timers[key]? = notes.timers[key]? := congrArg (·.timers[key]?) h
  have hunended (h : Controller.endings key (news es) = []) : Controller.endings key es = [] := by
    rwa [endings_news] at h
  have hunheard (h : (firings (news es)).filter (·.notification.key = key) = []) :
      firingsOf key es = [] := by
    rwa [firings_news] at h
  have hunarrived (h : (arrivals (news es)).filter (·.key = key) = []) :
      arrivals (own key es) = [] := by
    rw [arrivals_own_news, h]
  cases h with
  | quiet news notes =>
    exact .stays (hunended (by rw [news]; rfl)) (hunheard (by rw [news]; rfl))
      (fun _ => hunarrived (by rw [news]; rfl)) (htimers notes)
  | receive n news notes =>
    refine .stays (hunended (by rw [news]; rfl)) (hunheard (by rw [news]; rfl)) ?_ (htimers notes)
    intro hunreceived
    have hreceived : .received n ∈ es := by
      refine (mem_news.1 ?_).1
      rw [news]
      exact List.mem_cons_self
    refine hunarrived ?_
    rw [news]
    exact List.filter_cons_of_neg (by simp [Request.key, hunreceived n hreceived])
  | fire ring left current news notes =>
    by_cases hkey : ring.notification.key = key
    · subst hkey
      refine .heard rfl left current (hunended (by rw [news]; rfl)) ?_ ?_ ?_
      · rw [firingsOf, ← firings_news, news]
        exact List.filter_cons_of_pos (by simp)
      · rw [arrivals_own_news, news]
        exact List.filter_cons_of_pos (by simp [Request.key])
      · rw [htimers notes]
        exact Std.ExtTreeMap.getElem?_erase_self
    · refine .stays (hunended (by rw [news]; rfl)) (hunheard ?_) (fun _ => hunarrived ?_) ?_
      · rw [news]
        exact List.filter_cons_of_neg (by simpa using hkey)
      · rw [news]
        exact List.filter_cons_of_neg (by simp [Request.key, hkey])
      · rw [htimers notes]
        show (s.ledger.timers.erase ring.notification.key)[key]? = _
        rw [Std.ExtTreeMap.getElem?_erase, if_neg (by simpa using hkey)]
  | complete x left running news notes =>
    have htimer := htimers notes
    rw [Notes.getElem?_timers_settle] at htimer
    have hnone : firingsOf key es = [] := hunheard (by rw [news]; rfl)
    have hquiet : arrivals (own key es) = [] := hunarrived (by rw [news]; rfl)
    by_cases hkey : x.request.key = key
    · refine .ended left hkey ?_ hnone hquiet ?_
      · rw [← endings_news, news]
        exact List.filter_cons_of_pos (by simpa using hkey)
      · rw [htimer]
        simp only [hkey, true_and]
        rfl
    · rw [if_neg fun h => hkey h.1] at htimer
      refine .stays (hunended ?_) hnone (fun _ => hquiet) htimer
      rw [news]
      exact List.filter_cons_of_neg (by simpa using hkey)
  | close notes messages phase =>
    refine .forgotten rfl rfl rfl phase ?_
    rw [htimers notes]
    exact Std.ExtTreeMap.getElem?_empty

/-! ## The end of a pass and its timer -/

/-- The end of a pass of an object is taken where it waits first. -/
theorem step_of_ending {e : Event} {x : Completion} (ending : x ∈ endings key (c.step s e).2) :
    ∃ rest, s.phase = .running ∧ s.completions = x :: rest ∧ c.step s e = c.step s .complete := by
  obtain ⟨entry, hentry, hx⟩ := List.mem_filterMap.1 (List.mem_filter.1 ending).1
  obtain ⟨r, result, rfl⟩ : ∃ r result, entry = .completed r result := by
    cases entry with
    | completed r result => exact ⟨r, result, rfl⟩
    | _ => cases hx
  obtain rfl := Option.some.inj hx
  obtain ⟨front, after, hsplit⟩ := List.append_of_mem hentry
  obtain ⟨-, rest, running, first, hstep⟩ := (turn_step c s e).completed hsplit
  exact ⟨rest, running, first, hstep.trans (step_complete running first).symm⟩

/-- No timer is armed for an object without an end of a pass of it. -/
theorem armingsOf_of_unended {e : Event} (unended : endings key (c.step s e).2 = []) :
    armingsOf key (c.step s e).2 = [] := by
  refine List.filter_eq_nil_iff.2 ?_
  intro t ht hkey
  obtain ⟨-, x, rest, running, first, hstep⟩ := completes_of_armed ht
  simp only [hstep, State.complete] at ht unended
  rcases hc : s.ledger.complete c.config.backoff x.request x.result with _ | ⟨l, orders, events⟩
  · simp only [hc] at ht
    exact absurd ht List.not_mem_nil
  · simp only [hc, obeyAll_entries] at ht unended
    rw [armings_completed] at ht
    obtain ⟨-, htkey, -⟩ := armed_of_complete hc ht
    have hx : x ∈ endings key (.completed x.request x.result :: events.map .logged ++
        orders.map .ofOrder) :=
      List.mem_filter.2 ⟨List.mem_cons_self, by simpa [← htkey] using hkey⟩
    rw [unended] at hx
    exact absurd hx List.not_mem_nil

/-- A failure of an object that is worth another try arms one timer. -/
theorem armingsOf_of_retryable {e : Event} {x : Completion}
    (ending : endings key (c.step s e).2 = [x]) (ofKey : x.request.key = key)
    (again : retryable x.result) :
    ∃ t, armingsOf key (c.step s e).2 = [t] ∧ t.notification = x.request.notification ∧
      t.generation = s.ledger.lastGeneration + 1 ∧
      c.config.backoff.delayFor? (s.ledger.streak key) = some t.delay := by
  have hx : x ∈ endings key (c.step s e).2 := ending ▸ List.mem_singleton_self x
  obtain ⟨rest, running, first, hstep⟩ := step_of_ending hx
  rw [hstep] at ending ⊢
  subst ofKey
  rcases step_retryable running first again with ⟨delay, more, hdelay, hmore, htaken⟩ |
      ⟨-, -, htaken⟩
  · refine ⟨⟨s.ledger.lastGeneration + 1, x.request.notification, delay⟩, ?_, rfl, rfl, hdelay⟩
    rw [htaken, armingsOf, show armings _ = _ :: armings more from rfl, hmore]
    exact List.filter_cons_of_pos (by simp [Timer.key, Request.key])
  · rw [htaken] at ending
    cases ending

/-- The end of a pass that asks for no timer arms none. -/
theorem armingsOf_of_asleep {e : Event} {x : Completion}
    (ending : endings key (c.step s e).2 = [x]) (asleep : wakeUp? x.request x.result = none) :
    armingsOf key (c.step s e).2 = [] := by
  have hx : x ∈ endings key (c.step s e).2 := ending ▸ List.mem_singleton_self x
  obtain ⟨rest, running, first, hstep⟩ := step_of_ending hx
  refine List.filter_eq_nil_iff.2 ?_
  intro t ht _
  rw [hstep, step_complete running first] at ht
  simp only [State.complete] at ht
  rcases hc : s.ledger.complete c.config.backoff x.request x.result with _ | ⟨l, orders, events⟩
  · simp only [hc] at ht
    exact absurd ht List.not_mem_nil
  · simp only [hc, obeyAll_entries] at ht
    rw [armings_completed] at ht
    obtain ⟨-, hwake⟩ := (notes_complete hc).2 t (armed_of_complete hc ht).1
    rw [asleep] at hwake
    cases hwake

/-! ## Timers that are expected -/

/-- While the controller is open, an idle object whose last pass asked for a timer has one. -/
def Expecting (s : State) (j : List Entry) : Prop :=
  ∀ key x, (endings key j).getLast? = some x → (wakeUp? x.request x.result).isSome →
    ¬s.phase.isClosed → ¬s.ledger.inFlight.contains key → s.ledger.timers[key]?.isSome

theorem Expecting.step (h : Expecting s j) (regular : Regular c s j) (e : Event) :
    Expecting (c.step s e).1 (j ++ (c.step s e).2) := by
  intro key x hlast hwake hopen hidle
  have hbooking := booking_step c s e
  have hbefore := (hbooking.timer hopen key).1
  rw [endings_append] at hlast
  cases hbooking.timerMove key with
  | stays unended unheard unarrived timer =>
    rw [unended, List.append_nil] at hlast
    rw [timer]
    exact h key x hlast hwake hbefore (regular.idle_of_unended e hidle unended)
  | forgotten unended unheard unarrived closed => exact absurd closed hopen
  | @heard ring ofKey left current unended heard arrived =>
    -- an object for which something arrives is not idle
    have hmem : ⟨s.ledger.nextSerial, ring.notification⟩ ∈ arrivals (own key (c.step s e).2) := by
      rw [arrived]
      exact List.mem_singleton_self _
    rw [arrivals_own] at hmem
    have hbusy := regular.booked.busy_of_arrival (List.mem_filter.1 hmem).1
    exact absurd (ofKey ▸ hbusy) hidle
  | ended left ofKey ending unheard unarrived timer =>
    rw [ending, List.getLast?_concat] at hlast
    obtain rfl := Option.some.inj hlast
    rw [timer, if_pos hwake]
    rfl

/-- What is kept of passes, timers and failures in every run. -/
structure Reckoned (c : Controller) (s : State) (j : List Entry) : Prop where
  regular : Regular c s j
  dated : Dated s j
  streaked : Streaked s j
  expecting : Expecting s j

theorem Reckoned.step (h : Reckoned c s j) (e : Event) :
    Reckoned c (c.step s e).1 (j ++ (c.step s e).2) where
  regular := h.regular.step e
  dated := h.dated.step c e
  streaked := h.streaked.keeps (booking_step c s e)
  expecting := h.expecting.step h.regular e

theorem reckoned_run (c : Controller) (clock : Instant) (events : List Event) :
    Reckoned c (c.run (.initial clock) events).1 (c.run (.initial clock) events).2 := by
  refine run_of_nil c (Reckoned c) (fun _ _ e h => h.step e) _ events
    ⟨regular_initial c clock, dated_initial clock, streaked_initial clock, ?_⟩
  intro key x hlast
  cases hlast

end ClusterVitals.Controller
