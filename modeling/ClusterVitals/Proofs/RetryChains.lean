import ClusterVitals.Proofs.TimerMoves

/-!
# The tries of a notification for a pod

A notification for a pod that is idle starts a pass. As long as its passes fail with errors that are
worth another try, each failure arms a timer for the same notification, and the message of the timer
starts the next pass. If nothing further is taken from the queue for the pod, `m` failures in a row
make for exactly `m + 1` passes, and the timers wait for the delays of 0, 1, and so on failures. All
this is for as long as these delays are durations: at the first one that is not, the controller
breaks off, and the failure is the end of the tries.

## Shape of the proofs

`Fate` says where the tries of a notification have come to: a pass is under way, or a timer sleeps,
or the tries are over. `Chain` is the invariant that goes with it, and `Tried.step` takes it on with
the lane of the pod, by the one move of its timer in a turn. `CutShort` says how they stand when the
controller breaks off at one of them. `TriesLaw` is what is left of it at the end of a run.
-/

namespace ClusterVitals.Controller

open State Ledger

variable {c : Controller} {clock : Instant} {key : ObjectKey} {n : Notification}
  {s s' : State} {j k es : List Entry}

/-! ## Tries -/

/-- Where the tries of a notification have come to after `m` failures: a pass is under way, or a
timer sleeps or has left its message, or the last pass did not fail so that it is tried again. -/
inductive Fate (key : ObjectKey) (m : Nat) (k : List Entry) : Option Request → Option Timer → Prop
    where
  | underWay (r : Request) (failed : ∀ x ∈ endings key k, retryable x.result)
      (length : (endings key k).length = m)
      (heard : firingsOf key k = (armingsOf key k).map Timer.message) : Fate key m k (some r) none
  | asleep (t : Timer) (failed : ∀ x ∈ endings key k, retryable x.result)
      (length : (endings key k).length = m)
      (heard : firingsOf key k ++ [t.message] = (armingsOf key k).map Timer.message) :
      Fate key m k none (some t)
  | concluded {failed : List Completion} {last : Completion}
      (ends : endings key k = failed ++ [last])
      (length : failed.length = m) (again : ∀ x ∈ failed, retryable x.result)
      (lasting : ¬retryable last.result)
      (heard : firingsOf key k = (armingsOf key k).map Timer.message) : Fate key m k none none

/-- Entries with nothing of the object change nothing. -/
theorem Fate.congr {m : Nat} {current : Option Request} {timer : Option Timer}
    (h : Fate key m k current timer) (unended : endings key es = [])
    (unarmed : armingsOf key es = []) (unheard : firingsOf key es = []) :
    Fate key m (k ++ es) current timer := by
  have hendings : endings key (k ++ es) = endings key k := by
    rw [endings_append, unended, List.append_nil]
  have harmings : armingsOf key (k ++ es) = armingsOf key k := by
    rw [armingsOf_append, unarmed, List.append_nil]
  have hfirings : firingsOf key (k ++ es) = firingsOf key k := by
    rw [firingsOf_append, unheard, List.append_nil]
  cases h with
  | underWay r failed length heard =>
    exact .underWay r (hendings ▸ failed) (hendings ▸ length) (by rw [hfirings, harmings, heard])
  | asleep t failed length heard =>
    exact .asleep t (hendings ▸ failed) (hendings ▸ length) (by rw [hfirings, harmings, heard])
  | concluded ends length again lasting heard =>
    exact .concluded (hendings.trans ends) length again lasting (by rw [hfirings, harmings, heard])

/-- The notification and the delay of each of the first `m` timers: the notification that is tried,
and the delay of as many failures as there were before. -/
def retries (c : Controller) (n : Notification) (m : Nat) : List (Notification × Option Duration) :=
  (List.range m).map fun i => (n, c.config.backoff.delayFor? (min i largestStreak))

theorem retries_succ (c : Controller) (n : Notification) (m : Nat) :
    retries c n (m + 1) =
      retries c n m ++ [(n, c.config.backoff.delayFor? (min m largestStreak))] := by
  rw [retries, List.range_succ, List.map_append]
  rfl

/-- The tries of a notification for a pod. The journal `j` goes back to the start of the run, and
`k` to where the notification was taken. -/
structure Chain (c : Controller) (n : Notification) (s : State) (j k : List Entry) (m : Nat)
    (current : Option Request) (timer : Option Timer) : Prop where
  lane : ∃ next, s.Follows n.key ⟨next, current, .empty⟩ ∧
    Lane.History (own n.key j) ⟨next, current, .empty⟩
  since : ∃ front, j = front ++ k
  expected : ∀ g, s.ledger.timers[n.key]? = some g → timer.map Timer.generation = some g
  request : ∀ r ∈ current, r.notification = n
  message : ∀ t ∈ timer, t.notification = n
  streak : (current.isSome ∨ timer.isSome) → failuresInARow n.key j = m
  fate : Fate n.key m k current timer
  passes : (starts (own n.key k)).map Request.notification =
    List.replicate ((firingsOf n.key k).length + 1) n
  retried : (armingsOf n.key k).map (fun t => (t.notification, some t.delay)) = retries c n m

/-- A notification is tried. -/
def Tried (c : Controller) (n : Notification) (s : State) (j k : List Entry) : Prop :=
  ∃ m current timer, Chain c n s j k m current timer

/-- Where nothing happens in the lane of an object, no end of a pass of it is taken. -/
theorem endings_of_quiet (quiet : own key es = []) : endings key es = [] := by
  have hfinishes := finishes_eq_endings key es
  rw [quiet] at hfinishes
  exact List.map_eq_nil_iff.1 hfinishes.symm

namespace Chain

variable {m : Nat} {current : Option Request} {timer : Option Timer}

/-- A turn that takes nothing up for the pod. -/
theorem still (h : Chain c n s j k m current timer) {next : Nat}
    (follows : s'.Follows n.key ⟨next, current, .empty⟩)
    (history : Lane.History (own n.key j) ⟨next, current, .empty⟩)
    (quiet : own n.key es = []) (unarmed : armingsOf n.key es = [])
    (move : TimerMove n.key s s' es) : Chain c n s' (j ++ es) (k ++ es) m current timer := by
  have hunended := endings_of_quiet quiet
  have harrivals : arrivals (own n.key es) = [] := by
    rw [quiet]
    rfl
  obtain ⟨hunheard, htimer⟩ : firingsOf n.key es = [] ∧
      ∀ g, s'.ledger.timers[n.key]? = some g → s.ledger.timers[n.key]? = some g := by
    cases move with
    | stays _ unheard _ timer => exact ⟨unheard, fun g hg => timer ▸ hg⟩
    | forgotten _ unheard _ _ timer =>
      refine ⟨unheard, fun g hg => ?_⟩
      rw [timer] at hg
      cases hg
    | heard _ _ _ _ _ arrived =>
      rw [harrivals] at arrived
      cases arrived
    | ended _ _ ending =>
      rw [hunended] at ending
      cases ending
  obtain ⟨front, hsince⟩ := h.since
  constructor
  case lane =>
    refine ⟨next, follows, ?_⟩
    rw [own_append, quiet, List.append_nil]
    exact history
  case since => exact ⟨front, by rw [hsince, List.append_assoc]⟩
  case expected => exact fun g hg => h.expected g (htimer g hg)
  case request => exact h.request
  case message => exact h.message
  case streak => exact fun hlive => (failuresInARow_of_unended hunended).trans (h.streak hlive)
  case fate => exact h.fate.congr hunended unarmed hunheard
  case passes =>
    rw [own_append, quiet, List.append_nil, firingsOf_append, hunheard, List.append_nil]
    exact h.passes
  case retried =>
    rw [armingsOf_append, unarmed, List.append_nil]
    exact h.retried

/-- The message of the timer is taken, and starts the next pass. -/
theorem retry (h : Chain c n s j k m none timer) (dated : Dated s j) {next : Nat} {r : Request}
    (follows : s'.Follows n.key ⟨r.serial + 1, some r, .empty⟩)
    (history : Lane.History (own n.key j) ⟨next, none, .empty⟩) (fresh : next ≤ r.serial)
    (entries : own n.key es = [.scheduled r, .started r]) {ring : Ring} (left : ring ∈ s.messages)
    (current : s.ledger.timers[n.key]? = some ring.generation) (unended : endings n.key es = [])
    (unarmed : armingsOf n.key es = []) (heard : firingsOf n.key es = [ring])
    (arrived : arrivals (own n.key es) = [⟨s.ledger.nextSerial, ring.notification⟩])
    (forgotten : s'.ledger.timers[n.key]? = none) :
    Chain c n s' (j ++ es) (k ++ es) m (some r) none := by
  obtain ⟨front, hsince⟩ := h.since
  have hendings : endings n.key (k ++ es) = endings n.key k := by
    rw [endings_append, unended, List.append_nil]
  have harmings : armingsOf n.key (k ++ es) = armingsOf n.key k := by
    rw [armingsOf_append, unarmed, List.append_nil]
  have hgeneration := h.expected ring.generation current
  cases h.fate with
  | concluded => cases hgeneration
  | asleep t failed length hheard =>
    -- a generation is armed once, so the message is the one of this timer
    have hring : ring = t.message := by
      obtain ⟨t₁, ht₁, hmessage₁⟩ := dated.armed ring (List.mem_append_right _ left)
      obtain ⟨t₂, ht₂, hmessage₂⟩ : ∃ t₂ ∈ armingsOf n.key k, t₂.message = t.message := by
        refine List.mem_map.1 ?_
        rw [← hheard]
        exact List.mem_append_right _ (List.mem_singleton_self _)
      have hin : t₂ ∈ armings j := by
        rw [hsince, armings_append]
        exact List.mem_append_right _ (List.mem_filter.1 ht₂).1
      have hsame : t₁.generation = t₂.generation := by
        have h₁ : t₁.generation = ring.generation := congrArg Ring.generation hmessage₁
        have h₂ : t₂.generation = t.generation := congrArg Ring.generation hmessage₂
        rw [h₁, h₂]
        exact (Option.some.inj hgeneration).symm
      rw [← hmessage₁, ← hmessage₂, dated.eq_of_generation ht₁ hin hsame]
    have hrequest : r.notification = n := by
      rw [entries] at arrived
      obtain rfl : r = ⟨s.ledger.nextSerial, ring.notification⟩ := (List.cons.inj arrived).1
      rw [hring]
      exact h.message t rfl
    constructor
    case lane =>
      refine ⟨r.serial + 1, follows, ?_⟩
      rw [own_append, entries]
      exact history.step (.enter fresh)
    case since => exact ⟨front, by rw [hsince, List.append_assoc]⟩
    case expected =>
      intro g hg
      rw [forgotten] at hg
      cases hg
    case request =>
      rintro x hx
      rw [← Option.some.inj hx]
      exact hrequest
    case message => exact fun x hx => by cases hx
    case streak => exact fun _ => (failuresInARow_of_unended unended).trans (h.streak (.inr rfl))
    case fate =>
      refine .underWay r (hendings ▸ failed) (hendings ▸ length) ?_
      rw [firingsOf_append, heard, hring, harmings, hheard]
    case passes =>
      have hmore : List.replicate ((firingsOf n.key k).length + 1 + 1) n =
          List.replicate ((firingsOf n.key k).length + 1) n ++ [n] := List.replicate_succ'
      rw [own_append, starts_append, entries, List.map_append, h.passes, firingsOf_append, heard,
        List.length_append, List.length_singleton, hmore]
      exact congrArg (fun x => _ ++ [x]) hrequest
    case retried =>
      rw [harmings]
      exact h.retried

/-- The end of a pass is taken, and nothing is started. -/
theorem rest {cur : Request} {result : PassResult} {next m' : Nat} {timer' : Option Timer}
    (h : Chain c n s j k m (some cur) timer) (follows : s'.Follows n.key ⟨next, none, .empty⟩)
    (history : Lane.History (own n.key j) ⟨next, some cur, .empty⟩)
    (entries : own n.key es = [.completed cur result]) (unheard : firingsOf n.key es = [])
    (expected : ∀ g, s'.ledger.timers[n.key]? = some g → timer'.map Timer.generation = some g)
    (message : ∀ t ∈ timer', t.notification = n)
    (streak : timer'.isSome → failuresInARow n.key (j ++ es) = m')
    (fate : Fate n.key m' (k ++ es) none timer')
    (retried : (armingsOf n.key (k ++ es)).map (fun t => (t.notification, some t.delay)) =
      retries c n m') : Chain c n s' (j ++ es) (k ++ es) m' none timer' := by
  obtain ⟨front, hsince⟩ := h.since
  constructor
  case lane =>
    refine ⟨next, follows, ?_⟩
    rw [own_append, entries]
    exact history.step .rest
  case since => exact ⟨front, by rw [hsince, List.append_assoc]⟩
  case expected => exact expected
  case request => exact fun r hr => by cases hr
  case message => exact message
  case streak => exact fun hlive => streak (hlive.resolve_left Bool.false_ne_true)
  case fate => exact fate
  case passes =>
    rw [own_append, starts_append, entries, show starts [.completed cur result] = [] from rfl,
      List.append_nil, firingsOf_append, unheard, List.append_nil]
    exact h.passes
  case retried => exact retried

variable {cur : Request} {result : PassResult} {next : Nat} {e : Event} {x : Completion}

/-- A failure that is worth another try arms the next timer. -/
theorem fail (h : Chain c n s j k m (some cur) timer) (streaked : Streaked s j)
    (follows : (c.step s e).1.Follows n.key ⟨next, none, .empty⟩)
    (history : Lane.History (own n.key j) ⟨next, some cur, .empty⟩)
    (entries : own n.key (c.step s e).2 = [.completed cur result])
    (ending : endings n.key (c.step s e).2 = [x]) (ofKey : x.request.key = n.key)
    (same : x.request.notification = n) (again : retryable x.result)
    (unheard : firingsOf n.key (c.step s e).2 = [])
    (armed : (c.step s e).1.ledger.timers[n.key]? = some (s.ledger.lastGeneration + 1)) :
    Tried c n (c.step s e).1 (j ++ (c.step s e).2) (k ++ (c.step s e).2) := by
  obtain ⟨t, harmed, hmessage, hgeneration, hdelay⟩ := armingsOf_of_retryable ending ofKey again
  have hmessage : t.notification = n := hmessage.trans same
  have hstreak := h.streak (.inl rfl)
  refine ⟨m + 1, none, some t, h.rest follows history entries unheard ?_ ?_ ?_ ?_ ?_⟩
  · intro g hg
    rw [armed, ← hgeneration] at hg
    exact hg
  · rintro t' ht'
    rw [← Option.some.inj ht']
    exact hmessage
  · intro _
    rw [failuresInARow_of_ending ending, if_pos again, hstreak]
  · cases h.fate with
    | underWay _ failed length heard =>
      refine .asleep t ?_ ?_ ?_
      · rw [endings_append, ending]
        intro y hy
        rcases List.mem_append.1 hy with hy | hy
        · exact failed y hy
        · rw [List.mem_singleton.1 hy]
          exact again
      · rw [endings_append, ending, List.length_append, length]
        rfl
      · rw [firingsOf_append, unheard, List.append_nil, armingsOf_append, harmed, List.map_append,
          heard]
        rfl
  · -- the delay is that of the failures before this one, which are the tries so far
    rw [armingsOf_append, harmed, List.map_append, h.retried, retries_succ, ← hstreak,
      ← streaked.streak, hdelay, ← hmessage]
    rfl

/-- The end of a pass that is not tried again ends the tries. -/
theorem finish (h : Chain c n s j k m (some cur) timer)
    (follows : (c.step s e).1.Follows n.key ⟨next, none, .empty⟩)
    (history : Lane.History (own n.key j) ⟨next, some cur, .empty⟩)
    (entries : own n.key (c.step s e).2 = [.completed cur result])
    (ending : endings n.key (c.step s e).2 = [x]) (lasting : ¬retryable x.result)
    (asleep : wakeUp? x.request x.result = none) (unheard : firingsOf n.key (c.step s e).2 = [])
    (kept : (c.step s e).1.ledger.timers[n.key]? = s.ledger.timers[n.key]?) :
    Tried c n (c.step s e).1 (j ++ (c.step s e).2) (k ++ (c.step s e).2) := by
  have hunarmed := armingsOf_of_asleep ending asleep
  have harmings : armingsOf n.key (k ++ (c.step s e).2) = armingsOf n.key k := by
    rw [armingsOf_append, hunarmed, List.append_nil]
  cases h.fate with
  | underWay _ failed length heard =>
    refine ⟨m, none, none, h.rest follows history entries unheard ?_ (fun t ht => by cases ht)
      (fun hlive => by cases hlive) ?_ (harmings ▸ h.retried)⟩
    · intro g hg
      rw [kept] at hg
      exact h.expected g hg
    · refine .concluded (by rw [endings_append, ending]) length failed lasting ?_
      rw [firingsOf_append, unheard, List.append_nil, harmings, heard]

end Chain

/-- If nothing is taken from the queue for the pod, its notification goes on being tried. -/
theorem Tried.step (h : Tried c n s j k) (reckoned : Reckoned c s j) (pod : c.IsPod n.key)
    (e : Event) (unreceived : Unreceived n.key (c.step s e).2) :
    Tried c n (c.step s e).1 (j ++ (c.step s e).2) (k ++ (c.step s e).2) := by
  obtain ⟨m, current, timer, hchain⟩ := h
  obtain ⟨next, hfollows, hhistory⟩ := hchain.lane
  obtain ⟨lane', hmoves, hfollows'⟩ := reckoned.regular.booked.step c e hfollows hhistory
  have hmove := (booking_step c s e).timerMove n.key
  -- what arrives for the pod is the message of its timer
  have harrived {r : Request} (hr : arrivals (own n.key (c.step s e).2) = [r]) :
      ∃ ring ∈ s.messages, s.ledger.timers[n.key]? = some ring.generation ∧
        endings n.key (c.step s e).2 = [] ∧ firingsOf n.key (c.step s e).2 = [ring] ∧
        arrivals (own n.key (c.step s e).2) = [⟨s.ledger.nextSerial, ring.notification⟩] ∧
        (c.step s e).1.ledger.timers[n.key]? = none := by
    cases hmove with
    | stays _ _ unarrived => rw [unarrived unreceived] at hr; cases hr
    | forgotten _ _ unarrived => rw [unarrived] at hr; cases hr
    | ended _ _ _ _ unarrived => rw [unarrived] at hr; cases hr
    | heard ofKey left current unended heard arrived timer =>
      exact ⟨_, left, current, unended, heard, arrived, timer⟩
  rcases hmoves with ⟨rfl, hquiet⟩ | hstep
  · have hunarmed := armingsOf_of_unended (endings_of_quiet hquiet)
    exact ⟨m, current, timer, hchain.still hfollows' hhistory hquiet hunarmed hmove⟩
  · generalize hes : own n.key (c.step s e).2 = es at hstep
    cases hstep with
    | @enter _ _ r fresh =>
      obtain ⟨ring, left, current, unended, heard, arrived, timer⟩ :=
        harrived (by rw [hes]; rfl : _ = [r])
      exact ⟨m, some r, none, hchain.retry reckoned.dated hfollows' hhistory fresh hes left current
        unended (armingsOf_of_unended unended) heard arrived timer⟩
    | @hold _ cur _ r fresh =>
      -- while a pass is under way, no timer is expected
      obtain ⟨ring, -, current, -⟩ := harrived (by rw [hes]; rfl : _ = [r])
      have hgeneration := hchain.expected ring.generation current
      cases hchain.fate with
      | underWay => cases hgeneration
    | follow pop => cases pop
    | @rest _ cur result =>
      have hfinishes := finishes_eq_endings n.key (c.step s e).2
      rw [hes] at hfinishes
      cases hmove with
      | stays unended => rw [unended] at hfinishes; cases hfinishes
      | forgotten unended => rw [unended] at hfinishes; cases hfinishes
      | heard _ _ _ unended => rw [unended] at hfinishes; cases hfinishes
      | @ended x left ofKey ending unheard _ note =>
        rw [ending] at hfinishes
        have hsame : x.request.notification = n := by
          rw [← (List.cons.inj hfinishes).1]
          exact hchain.request cur rfl
        by_cases again : retryable x.result
        · rw [wakeUp?_of_retryable again, Option.isSome_some, if_pos rfl] at note
          exact hchain.fail reckoned.streaked hfollows' hhistory hes ending ofKey hsame again
            unheard note
        · have hasleep : wakeUp? x.request x.result = none :=
            (reckoned.regular.orderly.ends x left (ofKey ▸ pod)).wakeUp?_of_lasting again
          rw [hasleep] at note
          exact hchain.finish hfollows' hhistory hes ending again hasleep unheard note

theorem Tried.run (h : Tried c n s j k) (reckoned : Reckoned c s j) (pod : c.IsPod n.key)
    (events : List Event) (unreceived : Unreceived n.key (c.run s events).2) :
    Tried c n (c.run s events).1 (j ++ (c.run s events).2) (k ++ (c.run s events).2) := by
  induction events generalizing s j k with
  | nil =>
    rw [show (c.run s []).2 = [] from rfl, List.append_nil, List.append_nil]
    exact h
  | cons e rest ih =>
    have hfirst : Unreceived n.key (c.step s e).2 :=
      fun x hx => unreceived x (List.mem_append_left _ hx)
    have hrest : Unreceived n.key (c.run (c.step s e).1 rest).2 :=
      fun x hx => unreceived x (List.mem_append_right _ hx)
    have hrun := ih (h.step reckoned pod e hfirst) (reckoned.step e) hrest
    rw [List.append_assoc, List.append_assoc] at hrun
    exact hrun

/-- The tries of a notification are cut short: their last pass failed like all before it, and the
controller broke off at it, for there is no delay of so many failures. -/
structure CutShort (c : Controller) (n : Notification) (x : Completion) (k : List Entry) : Prop where
  same : x.request.notification = n
  failed : ∀ y ∈ endings n.key k, retryable y.result
  again : retryable x.result
  endless : c.config.backoff.delayFor? (min (endings n.key k).length largestStreak) = none
  passes : (starts (own n.key k)).map Request.notification =
    List.replicate ((endings n.key k).length + 1) n
  timers : (armingsOf n.key k).map (fun t => (t.notification, some t.delay)) =
    retries c n (endings n.key k).length

theorem Tried.cutShort (h : Tried c n s j k) (reckoned : Reckoned c s j) {x : Completion} {e : Event}
    (broke : x ∈ breaks (c.step s e).2) (ofKey : x.request.key = n.key) :
    CutShort c n x (k ++ (c.step s e).2) := by
  obtain ⟨m, current, timer, hchain⟩ := h
  obtain ⟨next, hfollows, -⟩ := hchain.lane
  obtain ⟨-, rest, left, first, hleft, hstep⟩ := (turn_step c s e).broke broke
  obtain ⟨again, endless, -⟩ := complete_eq_error_iff.1 hleft
  -- the pass at whose end the controller breaks off is the one under way
  have hended : x.request ∈ s.ended n.key := by
    refine List.mem_filter.2 ⟨List.mem_map_of_mem ?_, by simpa using ofKey⟩
    rw [first]
    exact List.mem_cons_self
  obtain rfl := hfollows.current_of_mem (List.mem_append_left _ hended)
  have hendings : endings n.key (k ++ [.brokeOff x.request x.result]) = endings n.key k := by
    rw [endings_append, show endings n.key [.brokeOff x.request x.result] = [] from rfl,
      List.append_nil]
  have harmings : armingsOf n.key (k ++ [.brokeOff x.request x.result]) = armingsOf n.key k := by
    rw [armingsOf_append, show armingsOf n.key [.brokeOff x.request x.result] = [] from rfl,
      List.append_nil]
  rw [hstep]
  cases hchain.fate with
  | underWay _ failed length heard =>
    constructor
    case same => exact hchain.request x.request rfl
    case failed =>
      rw [hendings]
      exact failed
    case again => exact again
    case endless =>
      rw [hendings, length, ← hchain.streak (.inl rfl), ← reckoned.streaked.streak, ← ofKey]
      exact endless
    case passes =>
      have hheard := congrArg List.length heard
      have hretried := congrArg List.length hchain.retried
      simp only [retries, List.length_map, List.length_range] at hheard hretried
      rw [own_append, starts_append, show own n.key [.brokeOff x.request x.result] = [] from rfl,
        show starts [] = [] from rfl, List.append_nil, hendings, hchain.passes, hheard, hretried,
        length]
    case timers =>
      rw [harmings, hendings, length]
      exact hchain.retried

theorem Tried.cutShort_run (h : Tried c n s j k) (reckoned : Reckoned c s j) (pod : c.IsPod n.key)
    (events : List Event) (unreceived : Unreceived n.key (c.run s events).2) {x : Completion}
    (broke : x ∈ breaks (c.run s events).2) (ofKey : x.request.key = n.key) :
    CutShort c n x (k ++ (c.run s events).2) := by
  induction events generalizing s j k with
  | nil => exact absurd broke List.not_mem_nil
  | cons e rest ih =>
    have hrun : (c.run s (e :: rest)).2 = (c.step s e).2 ++ (c.run (c.step s e).1 rest).2 := rfl
    rw [hrun, breaks_append, List.mem_append] at broke
    rw [hrun]
    rcases broke with hfirst | hrest
    · -- nothing happens any more after it
      rw [quiet_of_broke hfirst rest, List.append_nil]
      exact h.cutShort reckoned hfirst ofKey
    · have hunreceived : Unreceived n.key (c.step s e).2 :=
        fun y hy => unreceived y (List.mem_append_left _ hy)
      have hlater : Unreceived n.key (c.run (c.step s e).1 rest).2 :=
        fun y hy => unreceived y (List.mem_append_right _ hy)
      have hcut := ih (h.step reckoned pod e hunreceived) (reckoned.step e) hlater hrest
      rw [List.append_assoc] at hcut
      exact hcut

/-! ## Where the tries start -/

/-- An idle object that has no timer has no failures. -/
theorem Reckoned.no_failures (h : Reckoned c s j) (opened : ¬s.phase.isClosed)
    (idle : ¬s.ledger.inFlight.contains key) (unarmed : s.ledger.timers[key]? = none) :
    failuresInARow key j = 0 := by
  rcases List.eq_nil_or_concat (endings key j) with hnone | ⟨front, x, hlast⟩
  · rw [failuresInARow, hnone]
    rfl
  · rw [failuresInARow, hlast, List.concat_eq_append, List.rtakeWhile_concat]
    have hlasting : ¬retryable x.result := by
      intro again
      have harmed := h.expecting key x (by rw [hlast]; simp)
        (by rw [wakeUp?_of_retryable again]; rfl) opened idle
      rw [unarmed] at harmed
      cases harmed
    rw [if_neg hlasting]
    rfl

/-- A notification for an object that is idle starts a pass. -/
theorem entries_receive {rest : List Notification} (running : s.phase = .running)
    (first : s.queue = n :: rest) (idle : ¬s.ledger.inFlight.contains n.key) :
    (c.step s .receive).2 = [.received n, .scheduled ⟨s.ledger.nextSerial, n⟩,
      .started ⟨s.ledger.nextSerial, n⟩] := by
  simp only [step, running, first, State.receive, State.schedule]
  rw [obeyAll_entries, schedule_of_free idle]
  rfl

/-- With a notification for a pod that is idle and has no timer, the tries start. -/
theorem Reckoned.tried (h : Reckoned c s j) {rest : List Notification}
    (running : s.phase = .running) (first : s.queue = n :: rest)
    (idle : ¬s.ledger.inFlight.contains n.key) (unarmed : s.ledger.timers[n.key]? = none) :
    Tried c n (c.step s .receive).1 (j ++ (c.step s .receive).2) (c.step s .receive).2 := by
  have hentries := entries_receive (c := c) running first idle
  have hmove := (booking_step c s .receive).timerMove n.key
  set es := (c.step s .receive).2
  set r : Request := ⟨s.ledger.nextSerial, n⟩
  have hown : own n.key es = [.scheduled r, .started r] := by
    rw [hentries, own, List.filter_cons_of_neg (by simp [Entry.lane?])]
    exact List.filter_eq_self.2 (by simp [Entry.lane?, Request.key, r])
  have hunended : endings n.key es = [] := by
    rw [hentries]
    rfl
  have hopen : ¬s.phase.isClosed := by simp [Phase.isClosed_iff, running]
  have hforgotten : (c.step s .receive).1.ledger.timers[n.key]? = none := by
    cases hmove with
    | stays _ _ _ timer => rw [timer, unarmed]
    | forgotten _ _ _ _ timer => exact timer
    | heard _ _ _ _ _ _ timer => exact timer
    | ended _ _ ending => rw [hunended] at ending; cases ending
  obtain ⟨lane, hfollows, hhistory⟩ := h.regular.booked n.key
  obtain ⟨lane', hmoves, hfollows'⟩ := h.regular.booked.step c .receive hfollows hhistory
  have hmoves : lane.Moves [.scheduled r, .started r] lane' := hown ▸ hmoves
  have hidle : lane.current = none := by
    rw [hfollows.books.busy] at idle
    simpa using idle
  have hheld := hhistory.lined.idle hidle
  rcases hmoves with ⟨-, hnone⟩ | hstep
  · cases hnone
  · cases hstep with
    | @enter next held _ fresh =>
      obtain rfl : held = .empty := hheld
      refine ⟨0, some r, none, ?_⟩
      constructor
      case lane =>
        refine ⟨r.serial + 1, hfollows', ?_⟩
        rw [own_append, hown]
        exact hhistory.step (.enter fresh)
      case since => exact ⟨j, rfl⟩
      case expected =>
        intro g hg
        rw [hforgotten] at hg
        cases hg
      case request =>
        intro x hx
        rw [← Option.some.inj hx]
      case message => exact fun t ht => by cases ht
      case streak =>
        exact fun _ => (failuresInARow_of_unended hunended).trans (h.no_failures hopen idle unarmed)
      case fate =>
        rw [hentries]
        exact .underWay r (fun x hx => by cases hx) rfl rfl
      case passes =>
        rw [hown, hentries]
        rfl
      case retried =>
        rw [hentries]
        rfl

/-! ## What comes of the tries -/

/-- The tries of a notification go on as long as they fail: the pod has a pass or an end of one that
waits to be taken, or its timer is there to bring it up. -/
theorem Tried.goesOn (h : Tried c n s j k) (reckoned : Reckoned c s j)
    (running : s.phase = .running) (kept : ¬s.Lost n.key)
    (failed : ∀ x ∈ endings n.key k, retryable x.result) :
    s.running n.key ≠ [] ∨ s.ended n.key ≠ [] ∨ s.Rouses n.key := by
  by_cases hbusy : s.ledger.inFlight.contains n.key
  · by_contra hgone
    simp only [not_or, not_not] at hgone
    exact kept ⟨hbusy, hgone.1, hgone.2.1⟩
  · obtain ⟨m, current, timer, hchain⟩ := h
    obtain ⟨next, hfollows, -⟩ := hchain.lane
    have hidle := hbusy
    rw [hfollows.books.busy] at hidle
    cases hchain.fate with
    | underWay => exact absurd rfl hidle
    | concluded ends _ _ lasting =>
      refine absurd (failed _ ?_) lasting
      rw [ends]
      exact List.mem_append_right _ (List.mem_singleton_self _)
    | asleep t _ length heard =>
      -- a timer was armed, so there is a last failure, whose timer the books still have
      have hcount := congrArg List.length hchain.retried
      have hheard := congrArg List.length heard
      simp only [retries, List.length_map, List.length_range, List.length_append,
        List.length_singleton] at hcount hheard
      have hended : endings n.key k ≠ [] := List.ne_nil_of_length_pos (by omega)
      obtain ⟨x, hlast⟩ := Option.ne_none_iff_exists'.1 (mt List.getLast?_eq_none_iff.1 hended)
      obtain ⟨front, hsince⟩ := hchain.since
      have hlast' : (endings n.key j).getLast? = some x := by
        rw [hsince, endings_append, List.getLast?_append, hlast]
        rfl
      have hopen : ¬s.phase.isClosed := by simp [Phase.isClosed_iff, running]
      have hwake : (wakeUp? x.request x.result).isSome := by
        rw [wakeUp?_of_retryable (failed x (List.mem_of_getLast? hlast))]
        rfl
      have harmed := reckoned.expecting n.key x hlast' hwake hopen hbusy
      refine .inr (.inr (reckoned.dated.rouses ?_ harmed))
      rw [running]
      exact Phase.noConfusion

/-- What came of a notification for a pod, if nothing further was taken from the queue for the pod.
-/
structure TriesLaw (c : Controller) (n : Notification) (s : State) (k : List Entry) : Prop where
  /-- All passes that have ended failed so as to be tried again, but for the last one perhaps. -/
  failed : ∀ x ∈ (endings n.key k).dropLast, retryable x.result
  /-- There is one pass, and one more for each message of a timer that was taken, all of them for
  the notification. -/
  passes : (starts (own n.key k)).map Request.notification =
    List.replicate ((firingsOf n.key k).length + 1) n
  /-- Each failure armed one timer for the notification, with the delay of the failures before
  it. -/
  timers : (armingsOf n.key k).map (fun t => (t.notification, some t.delay)) =
    retries c n ((endings n.key k).countP fun x => retryable x.result)
  /-- The messages that were taken are those of the timers, in order. -/
  heard : firingsOf n.key k <+: (armingsOf n.key k).map Timer.message
  /-- With exactly `m` failures, there are exactly `m + 1` passes and `m` timers, each of which was
  heard, and the pod is idle without a timer. -/
  exactly : ∀ m failed last, endings n.key k = failed ++ [last] → failed.length = m →
    ¬retryable last.result →
      (starts (own n.key k)).map Request.notification = List.replicate (m + 1) n ∧
      (armingsOf n.key k).map (fun t => (t.notification, some t.delay)) = retries c n m ∧
      firingsOf n.key k = (armingsOf n.key k).map Timer.message ∧
      ¬s.ledger.inFlight.contains n.key ∧ s.ledger.timers[n.key]? = none
  /-- While all passes failed and the controller works, there is a pass of the pod, or the end of one
  that waits to be taken, or its timer is there to bring it up. -/
  goesOn : s.phase = .running → ¬s.Lost n.key → (∀ x ∈ endings n.key k, retryable x.result) →
    s.running n.key ≠ [] ∨ s.ended n.key ≠ [] ∨ s.Rouses n.key
  /-- So once nothing of this is there any more, and `m` passes have failed in all, there were exactly
  `m + 1` passes, and each failure was followed by its retry. -/
  atRest : s.phase = .running → ¬s.Lost n.key → s.running n.key = [] → s.ended n.key = [] →
    ¬s.Rouses n.key → ∀ m, ((endings n.key k).countP fun x => retryable x.result) = m →
      (endings n.key k).length = m + 1 ∧
      (starts (own n.key k)).map Request.notification = List.replicate (m + 1) n ∧
      (armingsOf n.key k).map (fun t => (t.notification, some t.delay)) = retries c n m ∧
      firingsOf n.key k = (armingsOf n.key k).map Timer.message
  /-- If the controller breaks off at a failure of the pod, there is no delay of as many failures as
  there were before it, and the pass that failed remains the last one. -/
  cutShort : ∀ x ∈ breaks k, x.request.key = n.key → CutShort c n x k

/-- With a last pass that was not to be tried again, there are as many passes and timers as there
were failures before it. -/
theorem Tried.exactly (h : Tried c n s j k) {m : Nat} {failed : List Completion} {last : Completion}
    (ended : endings n.key k = failed ++ [last]) (count : failed.length = m)
    (lasting : ¬retryable last.result) :
    (starts (own n.key k)).map Request.notification = List.replicate (m + 1) n ∧
      (armingsOf n.key k).map (fun t => (t.notification, some t.delay)) = retries c n m ∧
      firingsOf n.key k = (armingsOf n.key k).map Timer.message ∧
      ¬s.ledger.inFlight.contains n.key ∧ s.ledger.timers[n.key]? = none := by
  obtain ⟨m', current, timer, hchain⟩ := h
  obtain ⟨next, hfollows, -⟩ := hchain.lane
  have hlast : last ∈ endings n.key k := by
    rw [ended]
    exact List.mem_append_right _ (List.mem_singleton_self _)
  cases hchain.fate with
  | underWay _ failed => exact absurd (failed last hlast) lasting
  | asleep _ failed => exact absurd (failed last hlast) lasting
  | concluded ends length again _ heard =>
    obtain ⟨rfl, -⟩ := List.append_inj' (ended.symm.trans ends) rfl
    obtain rfl : m' = m := length.symm.trans count
    have harmed := congrArg List.length hchain.retried
    have hheard := congrArg List.length heard
    simp only [retries, List.length_map, List.length_range] at harmed hheard
    refine ⟨?_, hchain.retried, heard, ?_, ?_⟩
    · rw [hchain.passes, hheard, harmed]
    · rw [hfollows.books.busy]
      exact Bool.false_ne_true
    · rcases htimer : s.ledger.timers[n.key]? with _ | g
      · rfl
      · cases hchain.expected g htimer

/-- All passes that have ended failed so as to be tried again, but for the last one perhaps. -/
theorem Tried.failed (h : Tried c n s j k) :
    ∀ x ∈ (endings n.key k).dropLast, retryable x.result := by
  obtain ⟨m, current, timer, hchain⟩ := h
  cases hchain.fate with
  | underWay _ failed => exact fun x hx => failed x (List.dropLast_subset _ hx)
  | asleep _ failed => exact fun x hx => failed x (List.dropLast_subset _ hx)
  | concluded ends _ again =>
    rw [ends, List.dropLast_concat]
    exact again

theorem Tried.law (h : Tried c n s j k) (reckoned : Reckoned c s j)
    (cut : ∀ x ∈ breaks k, x.request.key = n.key → CutShort c n x k) : TriesLaw c n s k := by
  have hgoesOn := h.goesOn reckoned
  have hexactly {m : Nat} {failed : List Completion} {last : Completion} :=
    @Tried.exactly c n s j k h m failed last
  have hfailed := h.failed
  obtain ⟨m, current, timer, hchain⟩ := h
  obtain ⟨next, hfollows, -⟩ := hchain.lane
  constructor
  case failed => exact hfailed
  case passes => exact hchain.passes
  case timers =>
    rw [hchain.retried]
    congr 1
    cases hchain.fate with
    | underWay _ failed length => rw [← length, List.countP_eq_length.2 failed]
    | asleep _ failed length => rw [← length, List.countP_eq_length.2 failed]
    | concluded ends length again lasting =>
      rw [ends, List.countP_append, List.countP_eq_length.2 again, length,
        List.countP_singleton, if_neg lasting, Nat.add_zero]
  case heard =>
    cases hchain.fate with
    | underWay _ _ _ heard => exact heard ▸ List.prefix_rfl
    | asleep _ _ _ heard => exact heard ▸ List.prefix_append _ _
    | concluded _ _ _ _ heard => exact heard ▸ List.prefix_rfl
  case exactly => exact fun m failed last => hexactly
  case goesOn => exact hgoesOn
  case atRest =>
    intro hworks hkept hrunning hended hasleep m' hcount
    -- the last pass that ended is not to be tried again, or the tries would go on
    obtain ⟨last, hmem, hlasting⟩ : ∃ x ∈ endings n.key k, ¬retryable x.result := by
      by_contra hnone
      have hall : ∀ x ∈ endings n.key k, retryable x.result :=
        fun x hx => by_contra fun hx' => hnone ⟨x, hx, hx'⟩
      rcases hgoesOn hworks hkept hall with hgoes | hgoes | hgoes
      · exact hgoes hrunning
      · exact hgoes hended
      · exact hasleep hgoes
    rcases List.eq_nil_or_concat' (endings n.key k) with hnone | ⟨front, x, hends⟩
    · rw [hnone] at hmem
      exact absurd hmem List.not_mem_nil
    · rw [hends, List.dropLast_concat] at hfailed
      rw [hends, List.mem_append, List.mem_singleton] at hmem
      obtain rfl : last = x := hmem.resolve_left fun hfront => hlasting (hfailed last hfront)
      rw [hends, List.countP_append, List.countP_eq_length.2 hfailed, List.countP_singleton,
        if_neg hlasting, Nat.add_zero] at hcount
      obtain ⟨hpasses, htimers, hheard, -⟩ := hexactly hends hcount hlasting
      refine ⟨?_, hpasses, htimers, hheard⟩
      rw [hends, List.length_append, hcount]
      rfl
  case cutShort => exact cut

/-! ## The law of failures in a row -/

/-- How the pass of a pod ends that has its answer: so as to be tried again if its fetch failed, and
not so if it did not and there was time left. -/
theorem Regular.fetched (h : Regular c s j) {r : Request} {kind : ObjectKind} {since ready : Nat}
    (allowed : Option Nat) (fetching : ⟨r, .fetching kind since ready⟩ ∈ s.passes)
    (pod : c.IsPod r.key) (elapsed : ringTime ready ≤ s.now) :
    ∃ result, (c.step s (.resume r.serial allowed)).1.completions = s.completions ++ [⟨r, result⟩] ∧
      (s.cluster.faults.failures ≠ 0 → retryable result) ∧
      (s.cluster.faults.failures = 0 → allowed = none → ¬retryable result) := by
  obtain ⟨rfl, -⟩ := need_of_pod (n := r.notification) pod
    (h.orderly.needed _ fetching kind ⟨since, ready, rfl⟩)
  refine ⟨(planOf c s r .pod allowed).result, ?_, ?_, ?_⟩
  · have hpass : s.pass? r.serial = some ⟨r, .fetching .pod since ready⟩ := h.pass?_of_mem fetching
    simp only [Controller.step, hpass]
    rw [if_pos elapsed]
    rfl
  · intro hfailing
    obtain ⟨m, hm⟩ := Nat.exists_eq_succ_of_ne_zero hfailing
    have hanswer : (s.cluster.answer .pod r.key).2.1 =
        .pod (.error (.fetch r.key "injected failure")) := by
      simp only [Cluster.answer, hm]
      rfl
    rw [planOf, hanswer]
    rfl
  · rintro hnone rfl
    have hanswer : (s.cluster.answer .pod r.key).2.1 =
        .pod (s.cluster.pods[r.key]?.elim (.error (.notFound r.key)) .ok) := by
      simp only [Cluster.answer, hnone]
      rfl
    rw [planOf, hanswer]
    rcases s.cluster.pods[r.key]? with _ | found
    · exact Bool.false_ne_true
    · simp [Dispatcher.plan, podPlan, retryable]

/-- The end of a pass that is not worth another try leaves no failures of its object. -/
theorem failures_complete {x : Completion} {rest : List Completion} (running : s.phase = .running)
    (first : s.completions = x :: rest) (lasting : ¬retryable x.result) :
    (c.step s .complete).1.ledger.failures[x.request.key]? = none := by
  rw [step_complete running first, State.complete]
  dsimp only
  rcases hc : s.ledger.complete c.config.backoff x.request x.result with
      left | ⟨l, orders, events⟩
  · exact absurd (complete_eq_error_iff.1 hc).1 lasting
  · show (obeyAll c _ _).1.ledger.failures[x.request.key]? = none
    rw [obeyAll_frame]
    show l.notes.failures[x.request.key]? = none
    rw [(notes_complete hc).1, Notes.getElem?_failures_settle, if_pos rfl, if_neg lasting]

/-- What holds of the failures in a row of passes at the end of a run. -/
structure StreakLaw (c : Controller) (clock : Instant) (events : List Event) (s : State)
    (j : List Entry) : Prop where
  /-- The books count the failures in a row of every object. -/
  counted : ∀ key : ObjectKey, s.ledger.failures[key]? = counted? (failuresInARow key j)
  /-- Each failure that is worth another try was followed by a timer for the same notification, with
  the delay of the failures in a row before it. -/
  delayed : Delayed c j
  /-- Taking such a failure arms this timer and no other one, if the delay is a duration. -/
  armed : ∀ x rest, s.phase = .running → s.completions = x :: rest → retryable x.result →
    ∀ delay ∈ c.config.backoff.delayFor? (min (failuresInARow x.request.key j) largestStreak),
      ∃ t, t.delay = delay ∧ t.notification = x.request.notification ∧
        armings (c.step s .complete).2 = [t] ∧ (c.step s .complete).1.phase = .running
  /-- If it is not, the controller breaks off, and no timer is armed. -/
  endless : ∀ x rest, s.phase = .running → s.completions = x :: rest → retryable x.result →
    c.config.backoff.delayFor? (min (failuresInARow x.request.key j) largestStreak) = none →
      armings (c.step s .complete).2 = [] ∧ (c.step s .complete).1.phase = .broken
  /-- The controller works until it is closed or breaks off, and no longer. -/
  working : s.phase = .running ↔ .close ∉ events ∧ ¬BreaksIn c clock events
  /-- It never breaks off if all delays are durations. -/
  lasting : (∀ failures, (c.config.backoff.delayFor? failures).isSome) → ¬BreaksIn c clock events
  /-- A success, or a failure that is not worth another try, leaves no failures of its object. -/
  cleared : ∀ x rest, s.phase = .running → s.completions = x :: rest → ¬retryable x.result →
    (c.step s .complete).1.ledger.failures[x.request.key]? = none
  /-- A pass of a pod whose fetch fails is tried again, and one that has its answer in time is
  not. -/
  fetched : ∀ r kind since ready allowed, ⟨r, .fetching kind since ready⟩ ∈ s.passes →
    c.IsPod r.key → ringTime ready ≤ s.now → ∃ result,
      (c.step s (.resume r.serial allowed)).1.completions = s.completions ++ [⟨r, result⟩] ∧
      (s.cluster.faults.failures ≠ 0 → retryable result) ∧
      (s.cluster.faults.failures = 0 → allowed = none → ¬retryable result)
  /-- A notification for a pod that is idle and has no timer is tried as long as its passes fail, if
  nothing further is taken from the queue for the pod. -/
  tries : ∀ before more n rest, events = before ++ .receive :: more → c.IsPod n.key →
    (c.run (.initial clock) before).1.phase = .running →
    (c.run (.initial clock) before).1.queue = n :: rest →
    ¬(c.run (.initial clock) before).1.ledger.inFlight.contains n.key →
    (c.run (.initial clock) before).1.ledger.timers[n.key]? = none →
    Unreceived n.key (c.run (c.step (c.run (.initial clock) before).1 .receive).1 more).2 →
      TriesLaw c n s (c.run (c.run (.initial clock) before).1 (.receive :: more)).2
  /-- A timer leaves its message once it is due. -/
  rings : ∀ t ∈ s.sleepers, ¬t.stopped → ringTime t.due ≤ s.now →
    t.timer.message ∈ (c.step s (.ring t.timer.generation)).1.rings
  /-- The message that the books wait for starts the next pass. -/
  heard : ∀ ring rest, s.phase = .running → s.rings = ring :: rest →
    s.ledger.timers[ring.notification.key]? = some ring.generation →
    ¬s.ledger.inFlight.contains ring.notification.key →
      starts (c.step s .hear).2 = [⟨s.ledger.nextSerial, ring.notification⟩]

/-- In every run, each failure that is worth another try arms a timer for the same notification with
the delay of the failures in a row before it, and `m` failures in a row make for `m + 1` passes, as
long as these delays are durations. -/
theorem streak_law (c : Controller) (clock : Instant) (events : List Event) :
    StreakLaw c clock events (c.run (.initial clock) events).1
      (c.run (.initial clock) events).2 := by
  have hreckoned := reckoned_run c clock events
  constructor
  case counted => exact hreckoned.streaked
  case delayed => exact delayed_run c clock events
  case armed =>
    intro x rest hrunning hfirst again delay hdelay
    rw [← hreckoned.streaked.streak] at hdelay
    rcases step_retryable hrunning hfirst again with ⟨delay', more, hdelay', hmore, htaken⟩ |
        ⟨hnone, -⟩
    · obtain rfl : delay' = delay := Option.mem_unique hdelay' hdelay
      refine ⟨⟨(c.run (.initial clock) events).1.ledger.lastGeneration + 1,
        x.request.notification, delay'⟩, rfl, rfl, ?_, ?_⟩
      · rw [htaken, show armings _ = _ :: armings more from rfl, hmore]
      · rcases running_step hrunning .complete (c := c) with hworks | hclose | ⟨-, -, y, hy, -, hnone⟩
        · exact hworks
        · cases hclose
        · rw [hfirst] at hy
          obtain rfl : x = y := Option.some.inj hy
          rw [hnone] at hdelay
          cases hdelay
    · rw [hnone] at hdelay
      cases hdelay
  case endless =>
    intro x rest hrunning hfirst again hnone
    rw [← hreckoned.streaked.streak] at hnone
    rw [step_of_endless hrunning hfirst again hnone]
    exact ⟨rfl, rfl⟩
  case working => exact running_iff
  case lasting => exact not_breaksIn_of_delays
  case cleared => exact fun x rest hrunning hfirst => failures_complete hrunning hfirst
  case fetched =>
    exact fun r kind since ready allowed hfetching hpod =>
      hreckoned.regular.fetched allowed hfetching hpod
  case tries =>
    rintro before more n rest rfl hpod hrunning hfirst hidle hunarmed hunreceived
    have hbefore := reckoned_run c clock before
    have htried := (hbefore.tried hrunning hfirst hidle hunarmed).run (hbefore.step .receive) hpod
      more hunreceived
    have hcut {x : Completion} := (hbefore.tried hrunning hfirst hidle hunarmed).cutShort_run
      (hbefore.step .receive) hpod more hunreceived (x := x)
    rw [List.append_assoc] at htried
    rw [run_append] at hreckoned ⊢
    refine htried.law hreckoned fun x hx hkey => hcut ?_ hkey
    -- taking the notification breaks nothing off
    have hentries := entries_receive (c := c) hrunning hfirst hidle
    rw [breaks_append, hentries] at hx
    exact hx
  case rings => exact fun t ht hlive hdue => hreckoned.dated.rings_ring ht hlive hdue
  case heard =>
    exact fun ring rest hrunning hfirst hcurrent hidle => starts_hear hrunning hfirst hcurrent hidle

/-- Three failures of the fetches of a pod make for four passes, one, two and four seconds apart. -/
example :
    let pod : ObjectKey := ⟨"default", "web-0"⟩
    let events := [.notify (.ofChange pod), .change (.inject ⟨3, none⟩), .receive] ++
      (List.range 3).flatMap (fun i => [.begin i, .resume i none, .complete,
        .advance (5 * nanosPerSecond), .ring (i + 1), .hear]) ++
      [.begin 3, .resume 3 none, .complete]
    let j := (run (.ofConfig .standard) (.initial (.ofUnixSeconds 1792281600)) events).2
    (starts j).map Request.serial = [0, 1, 2, 3] ∧
      (armings j).map (·.delay.nanos) = [1, 2, 4].map (· * nanosPerSecond) := by
  decide +kernel

/-! ## A delay that grows too fast -/

namespace Endless

/-- Valid settings: the second retry is delayed by the longest duration, which is none any more in
floating-point seconds. -/
def steep : Config :=
  { Config.standard with
    reconcile :=
      { ReconcileConfig.standard with
        backoff :=
          { Backoff.standard with maxDelay := .longest, multiplier := 100000000000000000000 } } }

/-- The first two fetches of a pod fail, and there is nothing wrong with the third one. -/
def twoFailures (key : ObjectKey) : List Event :=
  [.change (.inject ⟨2, none⟩), .notify (.ofChange key), .receive, .begin 0, .resume 0 none,
    .complete, .advance nanosPerSecond, .ring 1, .hear, .begin 1, .resume 1 none, .complete]

/-- Two failures are the end of the tries: there is no third pass, then or later. -/
theorem no_third_pass :
    let pod : ObjectKey := ⟨"default", "web-0"⟩
    let c : Controller := .ofConfig steep
    let out := c.run (.initial (.ofUnixSeconds 1792281600)) (twoFailures pod)
    steep.IsValid ∧ starts out.2 = [⟨0, .ofChange pod⟩, ⟨1, .ofChange pod⟩] ∧
      out.1.stats = ⟨2, 2, 2, 0⟩ ∧ (armings out.2).map (·.delay.nanos) = [nanosPerSecond] ∧
      ∀ more, (c.run out.1 more).2 = [] := by
  have hbroken : ((ofConfig steep).run (.initial (.ofUnixSeconds 1792281600))
      (twoFailures ⟨"default", "web-0"⟩)).1.phase = .broken := by
    decide +kernel
  exact ⟨by decide +kernel, by decide +kernel, by decide +kernel, by decide +kernel,
    (dead_of_broken hbroken).2.2⟩

end Endless

end ClusterVitals.Controller
