import ClusterVitals.Controller.Ledger
import ClusterVitals.Duration.Timer
import ClusterVitals.Reconcile.Dispatcher

/-!
# Controllers

A controller takes notifications from a queue and runs passes for them. A pass waits for a slot,
starts, fetches its object, and leaves its result for the controller. Timers sleep until they are
due, and leave a message for the controller.

`State` is everything that such a run consists of, and `Event` what can happen to it. `step` gives
the state after an event, with the entries that the event makes in the journal. An event that cannot
happen in a state changes nothing, so every list of events is a run.

## Shape of a run

The controller itself does one thing at a time: it receives a notification, takes the end of a pass,
or takes the message of a timer. Between these, passes and timers go on in any order. What a pass does
after its fetch happens at once. Closing the controller first stops its timers and then its passes;
both may still go on until they are stopped.
-/

namespace ClusterVitals

/-- A dispatcher with the settings under which its passes are run. -/
structure Controller where
  dispatcher : Dispatcher
  config : ReconcileConfig
  deriving DecidableEq, Repr

namespace Controller

/-- The controller of settings. -/
def ofConfig (c : Config) : Controller := ⟨.ofConfig c.certificate, c.reconcile⟩

/-- The most slots, and the most places of a queue, that a controller can have. -/
def largestCapacity : Nat := Nat.pow 2 61 - 1

/-- A controller can be started. -/
def canStart (c : Controller) : Bool :=
  0 < c.config.queueCapacity && c.config.queueCapacity ≤ largestCapacity &&
    c.config.maxConcurrent ≤ largestCapacity

/-- Running times from here on cannot be told. -/
def timeLimit : Nat := Nat.pow 2 63 * nanosPerSecond

/-- How far a pass has come. -/
inductive Stage where
  /-- It waits for a slot. -/
  | waiting
  /-- It has a slot. -/
  | granted
  /-- It has a slot and fetches its object; `since` is when it started, and `ready` when the fetch
  is over. -/
  | fetching (kind : ObjectKind) (since ready : Nat)
  deriving DecidableEq, Repr

/-- A pass that has not ended. -/
structure Pass where
  request : Request
  stage : Stage
  deriving DecidableEq, Repr

/-- A pass has a slot. -/
def Pass.hasSlot (p : Pass) : Bool := p.stage != .waiting

/-- A timer that has not ended, and when it is due. -/
structure Sleeper where
  timer : Timer
  due : Nat
  stopped : Bool
  deriving DecidableEq, Repr

/-- The message of a timer. -/
structure Ring where
  generation : Nat
  notification : Notification
  deriving DecidableEq, Repr

/-- The end of a pass. -/
structure Completion where
  request : Request
  result : PassResult

/-- Whether a controller still works. -/
inductive Phase where
  | running
  /-- It takes nothing more, and stops its timers and passes. -/
  | closing
  | stopped
  /-- It broke off at a failure without a delay, and so did its timers and passes. -/
  | broken
  deriving DecidableEq, Repr

/-- A run of a controller at one time. Lists are in order of age. `now` is the running time in
nanoseconds, and `clock` tells the time of day. -/
structure State where
  /-- The books as of the last thing that the controller took and dealt with to its end. -/
  ledger : Ledger
  passes : List Pass
  sleepers : List Sleeper
  completions : List Completion
  rings : List Ring
  queue : List Notification
  cluster : Cluster
  vitals : Vitals
  clock : Instant
  now : Nat
  phase : Phase
  /-- The books as a controller left them that broke off in the middle of an entry. Nobody goes on
  with them, but what they counted can still be told. -/
  abandoned : Option Ledger

/-- A controller that has just been started. -/
def State.initial (clock : Instant) : State :=
  ⟨.empty, [], [], [], [], [], .empty, .initial, clock, 0, .running, none⟩

/-- A change of the objects or the faults of a cluster. -/
inductive ClusterChange where
  | putPod (pod : Pod)
  | removePod (key : ObjectKey)
  | putSecret (secret : Secret)
  | removeSecret (key : ObjectKey)
  | inject (faults : Faults)

/-- What can happen in a run. Passes are told by the serials of their requests, timers by their
generations. -/
inductive Event where
  /-- A notification arrives in the queue. -/
  | notify (n : Notification)
  /-- The controller takes the first notification of the queue. -/
  | receive
  /-- The controller takes the first end of a pass. -/
  | complete
  /-- The controller takes the first message of a timer. -/
  | hear
  /-- A timer that is due leaves its message. -/
  | ring (generation : Nat)
  /-- A stopped timer ends. -/
  | reap (generation : Nat)
  /-- A pass with a slot starts. -/
  | begin (serial : Nat)
  /-- A pass has its answer; `allowed` of its looks at the deadline find time left. -/
  | resume (serial : Nat) (allowed : Option Nat)
  /-- A pass is broken off at its deadline. -/
  | expire (serial : Nat)
  /-- A pass dies and leaves no result. -/
  | die (serial : Nat)
  /-- Time goes by. -/
  | advance (nanos : Nat)
  /-- The clock is set. -/
  | setClock (clock : Instant)
  /-- The cluster changes. -/
  | change (c : ClusterChange)
  /-- The controller takes nothing more. -/
  | close
  /-- A timer is stopped while the controller closes. -/
  | stopTimer (generation : Nat)
  /-- A pass is stopped while the controller closes. -/
  | stopPass (serial : Nat)
  /-- The controller has stopped all of its timers and passes. -/
  | finish

/-- What a run leaves in its journal. -/
inductive Entry where
  | logged (event : LogEvent)
  /-- The first notification of the queue was taken. -/
  | received (notification : Notification)
  /-- A notification was scheduled as a request. -/
  | scheduled (request : Request)
  | started (request : Request)
  | applied (effect : Effect)
  /-- The controller took the end of a pass. -/
  | completed (request : Request) (result : PassResult)
  /-- The controller took the end of a pass, and broke off at it. -/
  | brokeOff (request : Request) (result : PassResult)
  | armed (timer : Timer)
  | replaced (generation : Nat)
  /-- The message of a timer was taken, and not passed over. -/
  | fired (ring : Ring)

/-- The event of an entry for the log. -/
def Entry.log? : Entry → Option LogEvent
  | .logged event => some event
  | _ => none

/-- The objects and faults after a change. -/
def ClusterChange.apply (cluster : Cluster) : ClusterChange → Cluster
  | .putPod pod => cluster.putPod pod
  | .removePod key => (cluster.removePod key).1
  | .putSecret secret => cluster.putSecret secret
  | .removeSecret key => (cluster.removeSecret key).1
  | .inject faults => cluster.inject faults

/-! ## Slots -/

/-- Gives slots to the passes that have waited longest. -/
def grantFirst : (free : Nat) → List Pass → List Pass
  | 0, passes => passes
  | _ + 1, [] => []
  | free + 1, p :: rest =>
    if p.hasSlot then p :: grantFirst (free + 1) rest
    else { p with stage := .granted } :: grantFirst free rest

/-- Gives the free slots to the passes that have waited longest. -/
def grant (c : Controller) (passes : List Pass) : List Pass :=
  grantFirst (c.config.maxConcurrent - passes.countP Pass.hasSlot) passes

namespace State

/-- The pass of a serial. -/
def pass? (s : State) (serial : Nat) : Option Pass :=
  s.passes.find? (·.request.serial == serial)

/-- The timer of a generation. -/
def sleeper? (s : State) (generation : Nat) : Option Sleeper :=
  s.sleepers.find? (·.timer.generation == generation)

/-- The books as they stand, also if the controller has broken off. -/
def books (s : State) : Ledger := s.abandoned.getD s.ledger

/-- What can be told of the counts of a controller. -/
def stats (s : State) : Stats := s.books.stats

/-- Passes still go on. -/
def isLive (s : State) : Bool := s.phase == .running || s.phase == .closing

/-- Ends a pass, and gives its slot to another one. -/
def endPass (c : Controller) (s : State) (serial : Nat) : State :=
  { s with passes := c.grant (s.passes.filter (·.request.serial != serial)) }

/-- Ends a pass that leaves its result. -/
def leaveResult (c : Controller) (s : State) (r : Request) (result : PassResult) : State :=
  { s.endPass c r.serial with completions := s.completions ++ [⟨r, result⟩] }

/-- Sets the stage of a pass. -/
def setStage (s : State) (serial : Nat) (stage : Stage) : State :=
  { s with
    passes := s.passes.map fun p =>
      if p.request.serial == serial then { p with stage } else p }

/-- Ends a timer. -/
def endTimer (s : State) (generation : Nat) : State :=
  { s with sleepers := s.sleepers.filter (·.timer.generation != generation) }

/-- Marks a timer as stopped. -/
def stopTimer (s : State) (generation : Nat) : State :=
  { s with
    sleepers := s.sleepers.map fun t =>
      if t.timer.generation == generation then { t with stopped := true } else t }

/-- Carries out one order of the ledger. -/
def obey (c : Controller) (s : State) : Order → State × List Entry
  | .start r => ({ s with passes := c.grant (s.passes ++ [⟨r, .waiting⟩]) }, [.started r])
  | .arm t =>
    ({ s with sleepers := s.sleepers ++ [⟨t, s.now + t.delay.nanos, false⟩] }, [.armed t])
  | .stop generation => (s.stopTimer generation, [.replaced generation])

/-- Carries out orders of the ledger. -/
def obeyAll (c : Controller) (s : State) : List Order → State × List Entry
  | [] => (s, [])
  | o :: rest =>
    let (s, entries) := s.obey c o
    let (s, more) := s.obeyAll c rest
    (s, entries ++ more)

/-- Carries out a plan. -/
def carryOut (c : Controller) (s : State) (r : Request) (plan : Plan) : State × List Entry :=
  let (vitals, events) := s.vitals.applyAll plan.effects
  ({ s with vitals }.leaveResult c r plan.result,
    plan.effects.map .applied ++ events.map .logged)

/-- Schedules a notification. -/
def schedule (c : Controller) (s : State) (n : Notification) : State × List Entry :=
  let request : Request := ⟨s.ledger.nextSerial, n⟩
  let (ledger, orders) := s.ledger.schedule n
  let (s, entries) := { s with ledger }.obeyAll c orders
  (s, .scheduled request :: entries)

/-- Takes a notification of the queue. -/
def receive (c : Controller) (s : State) (n : Notification) : State × List Entry :=
  let (s, entries) := s.schedule c n
  (s, .received n :: entries)

/-- Stops everything where it stands, and leaves the books as they are. -/
def breakOff (s : State) (left : Ledger) : State :=
  { s with passes := [], sleepers := [], phase := .broken, abandoned := some left }

/-- Takes the end of a pass. -/
def complete (c : Controller) (s : State) (r : Request) (result : PassResult) :
    State × List Entry :=
  match s.ledger.complete c.config.backoff r result with
  | .error left => (s.breakOff left, [.brokeOff r result])
  | .ok (ledger, orders, events) =>
    let (s, entries) := { s with ledger }.obeyAll c orders
    (s, .completed r result :: events.map .logged ++ entries)

/-- Takes the message of a timer. -/
def hear (c : Controller) (s : State) (ring : Ring) : State × List Entry :=
  if s.ledger.timers[ring.notification.key]? = some ring.generation then
    let request : Request := ⟨s.ledger.nextSerial, ring.notification⟩
    let (ledger, orders) := s.ledger.fire ring.generation ring.notification
    let (s, entries) := { s with ledger }.obeyAll c orders
    (s, .fired ring :: .scheduled request :: entries)
  else (s, [])

/-- The error of a pass that is out of time. -/
def lateError (c : Controller) (r : Request) : Error := .timeout r.key c.config.timeout

/-- Starts a pass that has a slot. It dies when its deadline cannot be told. -/
def begin (c : Controller) (s : State) (r : Request) : State × List Entry :=
  if timeLimit ≤ s.now + c.config.timeout.nanos then (s.endPass c r.serial, [])
  else
    let opening : Entry := .logged (c.dispatcher.opening r.notification)
    match c.dispatcher.need r.notification with
    | none =>
      let (s, entries) := s.carryOut c r (Dispatcher.deletionPlan r.key)
      (s, opening :: entries)
    | some kind =>
      let ready := s.now + (s.cluster.faults.latency.getD .zero).nanos
      ({ s with cluster := s.cluster.countFetch kind }.setStage r.serial
        (.fetching kind s.now ready), [opening])

/-- Lets a pass go on with the answer to its fetch. -/
def resume (c : Controller) (s : State) (r : Request) (kind : ObjectKind)
    (allowed : Option Nat) : State × List Entry :=
  let (cluster, answer, injected) := s.cluster.answer kind r.key
  let plan := c.dispatcher.plan r.key s.clock (lateError c r) allowed answer
  let (s, entries) := { s with cluster }.carryOut c r plan
  (s, if injected then .logged (.failureInjected r.key) :: entries else entries)

end State

open State

/-- The state after an event, and what the event leaves in the journal. -/
def step (c : Controller) (s : State) : Event → State × List Entry
  | .notify n =>
    if s.isLive ∧ s.queue.length < c.config.queueCapacity then
      ({ s with queue := s.queue ++ [n] }, [])
    else (s, [])
  | .receive =>
    match s.phase, s.queue with
    | .running, n :: rest => { s with queue := rest }.receive c n
    | _, _ => (s, [])
  | .complete =>
    match s.phase, s.completions with
    | .running, e :: rest => { s with completions := rest }.complete c e.request e.result
    | _, _ => (s, [])
  | .hear =>
    match s.phase, s.rings with
    | .running, r :: rest => { s with rings := rest }.hear c r
    | _, _ => (s, [])
  | .ring generation =>
    match s.sleeper? generation with
    | some t =>
      if ¬t.stopped ∧ ringTime t.due ≤ s.now then
        ({ s.endTimer generation with
          rings := s.rings ++ [⟨generation, t.timer.notification⟩] }, [])
      else (s, [])
    | none => (s, [])
  | .reap generation =>
    match s.sleeper? generation with
    | some t => if t.stopped then (s.endTimer generation, []) else (s, [])
    | none => (s, [])
  | .begin serial =>
    match s.pass? serial with
    | some ⟨r, .granted⟩ => s.begin c r
    | _ => (s, [])
  | .resume serial allowed =>
    match s.pass? serial with
    | some ⟨r, .fetching kind _ ready⟩ =>
      if ringTime ready ≤ s.now then s.resume c r kind allowed else (s, [])
    | _ => (s, [])
  | .expire serial =>
    match s.pass? serial with
    | some ⟨r, .fetching _ since ready⟩ =>
      if ringTime (since + c.config.timeout.nanos) ≤ s.now ∧ s.now < ringTime ready then
        (s.leaveResult c r (.error (lateError c r)), [])
      else (s, [])
    | _ => (s, [])
  | .die serial =>
    match s.pass? serial with
    | some p => if p.hasSlot then (s.endPass c serial, []) else (s, [])
    | none => (s, [])
  | .advance nanos => ({ s with now := s.now + nanos }, [])
  | .setClock clock => ({ s with clock }, [])
  | .change change => ({ s with cluster := change.apply s.cluster }, [])
  | .close =>
    if s.phase = .running then
      ({ s with phase := .closing, ledger := { s.ledger with timers := ∅ } }, [])
    else (s, [])
  | .stopTimer generation =>
    if s.phase = .closing then (s.stopTimer generation, []) else (s, [])
  | .stopPass serial =>
    if s.phase = .closing then (s.endPass c serial, []) else (s, [])
  | .finish =>
    if s.phase = .closing ∧ s.passes = [] ∧ s.sleepers = [] then
      ({ s with phase := .stopped }, [.logged .controllerStopped])
    else (s, [])

/-- The state after events, and their entries in the journal. -/
def run (c : Controller) (s : State) : List Event → State × List Entry
  | [] => (s, [])
  | e :: rest =>
    let (s, entries) := c.step s e
    let (s, more) := c.run s rest
    (s, entries ++ more)

/-- A run goes on from where its first part ended. -/
theorem run_append (c : Controller) (s : State) (first second : List Event) :
    c.run s (first ++ second) =
      ((c.run (c.run s first).1 second).1,
        (c.run s first).2 ++ (c.run (c.run s first).1 second).2) := by
  induction first generalizing s with
  | nil => simp [run]
  | cons e rest ih => simp [run, ih, List.append_assoc]

/-- What holds at the start of a run and is kept by every event holds at its end. -/
theorem run_invariant (c : Controller) (Inv : State → Prop)
    (kept : ∀ s e, Inv s → Inv (c.step s e).1) (s : State) (events : List Event) (h : Inv s) :
    Inv (c.run s events).1 := by
  induction events generalizing s with
  | nil => exact h
  | cons e rest ih => exact ih (c.step s e).1 (kept s e h)

end Controller

end ClusterVitals
