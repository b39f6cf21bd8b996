import ClusterVitals.Controller.State

/-!
# Simulated time

A run of a controller in which everything has its turn: what can go on goes on, one thing after the
other, and only when nothing can does time go by, up to the next timer. `Simulation` adds to the state
of a run the tasks that are due for a turn, in the order of their turns, and those that are asleep,
in the order in which they fell asleep. Whatever happens to the state happens by `Controller.step`.

The one who drives a simulation has its turns too: `notify`, `sleep`, `waitFor` and `shutdown` say what
it asks for. It goes on before the tasks that are due at the same time.
-/

namespace ClusterVitals

/-- What takes turns. -/
inductive Simulation.Task where
  | controller
  | pass (serial : Nat)
  | timer (generation : Nat)
  deriving DecidableEq, Repr

/-- A run of a controller with turns. The log is in reverse. -/
structure Simulation where
  controller : Controller
  state : Controller.State
  ready : List Simulation.Task
  asleep : List Simulation.Task
  closing : Bool
  log : List LogEvent

namespace Simulation

open Controller

/-- A controller that has just been started. -/
def start (c : Controller) (clock : Instant) : Simulation :=
  ⟨c, .initial clock, [.controller], [], false, []⟩

/-- Gives a task a turn, unless it has one ahead. -/
def wake (w : Simulation) (task : Task) : Simulation :=
  if w.ready.contains task then w
  else { w with ready := w.ready ++ [task], asleep := w.asleep.filter (· != task) }

/-- Notes a task that is asleep. -/
def rest (w : Simulation) (task : Task) : Simulation :=
  if w.asleep.contains task then w else { w with asleep := w.asleep ++ [task] }

/-- Gives a turn to the task that an entry of the journal is about. -/
def wakeFor (w : Simulation) : Entry → Simulation
  | .started r => w.wake (.pass r.serial)
  | .armed t => w.wake (.timer t.generation)
  | .replaced generation => w.wake (.timer generation)
  | _ => w

/-- Gives turns to the passes that have got a slot and have not started. -/
def wakeGranted (w : Simulation) : Simulation :=
  w.state.passes.foldl (fun w p =>
    if p.stage = .granted then w.wake (.pass p.request.serial) else w) w

/-- Lets an event happen. -/
def happen (w : Simulation) (e : Event) : Simulation :=
  let (state, entries) := w.controller.step w.state e
  entries.foldl wakeFor
    { w with state, log := (entries.filterMap Entry.log?).reverse ++ w.log }

/-- Lets an event of a task happen, which the controller is told of. -/
def tell (w : Simulation) (e : Event) : Simulation :=
  ((w.happen e).wake .controller).wakeGranted

/-! ## Turns -/

/-- The controller takes what has arrived: ends of passes first, then messages of timers, then
notifications. -/
def takeMail (w : Simulation) : (steps : Nat) → Simulation
  | 0 => w
  | steps + 1 =>
    if ¬w.state.completions.isEmpty then (w.happen .complete).takeMail steps
    else if ¬w.state.rings.isEmpty then (w.happen .hear).takeMail steps
    else if ¬w.state.queue.isEmpty then (w.happen .receive).takeMail steps
    else w

/-- The number of things that have arrived. -/
def mailSize (w : Simulation) : Nat :=
  w.state.completions.length + w.state.rings.length + w.state.queue.length

/-- The controller stops its timers. -/
def stopTimers (w : Simulation) : Simulation :=
  w.state.sleepers.foldl (fun w t =>
    (w.happen (.stopTimer t.timer.generation)).wake (.timer t.timer.generation)) w

/-- The controller stops its passes, and ends. -/
def stopPasses (w : Simulation) : Simulation :=
  (w.state.passes.foldl (fun w p => w.happen (.stopPass p.request.serial)) w).happen .finish

/-- Once its timers have ended, a closing controller goes on. -/
def goOnClosing (w : Simulation) : Simulation :=
  if w.state.sleepers.isEmpty then w.stopPasses else w

/-- The turn of the controller. -/
def controllerTurn (w : Simulation) : Simulation :=
  match w.state.phase with
  | .running =>
    -- what has arrived is not taken any more once the end was asked for
    if w.closing then (w.happen .close).stopTimers.goOnClosing
    else (w.takeMail w.mailSize).wakeGranted
  | .closing => w.goOnClosing
  | _ => w

/-- The turn of a pass that fetches. An answer that has come is taken even after the deadline. -/
def fetchTurn (w : Simulation) (serial since ready : Nat) : Simulation :=
  let timeout := w.controller.config.timeout.nanos
  if ringTime ready ≤ w.state.now then
    w.tell (.resume serial (if since + timeout ≤ w.state.now then some 0 else none))
  else if ringTime (since + timeout) ≤ w.state.now then w.tell (.expire serial)
  else w.rest (.pass serial)

/-- A pass that has just started goes on at once if it fetches. -/
def afterBegin (w : Simulation) (serial : Nat) : Simulation :=
  match (w.state.pass? serial).map Pass.stage with
  | some (.fetching _ since ready) => w.fetchTurn serial since ready
  | _ => (w.wake .controller).wakeGranted

/-- The turn of a pass. -/
def passTurn (w : Simulation) (serial : Nat) : Simulation :=
  match (w.state.pass? serial).map Pass.stage with
  | some .granted => (w.happen (.begin serial)).afterBegin serial
  | some (.fetching _ since ready) => w.fetchTurn serial since ready
  | _ => w

/-- The turn of a timer. -/
def timerTurn (w : Simulation) (generation : Nat) : Simulation :=
  match w.state.sleeper? generation with
  | some t =>
    if t.stopped then w.tell (.reap generation)
    else if ringTime t.due ≤ w.state.now then w.tell (.ring generation)
    else w.rest (.timer generation)
  | none => w

/-- The turn of a task. -/
def turn (w : Simulation) : Task → Simulation
  | .controller => w.controllerTurn
  | .pass serial => w.passTurn serial
  | .timer generation => w.timerTurn generation

/-- Lets the tasks have their turns until none is due. -/
def drain (w : Simulation) : (steps : Nat) → Simulation
  | 0 => w
  | steps + 1 =>
    match w.ready with
    | [] => w
    | task :: rest => ({ w with ready := rest }.turn task).drain steps

/-- More turns than can be due before time goes by: what is there takes a few turns each, and so does
each fetch that is yet to fail. -/
def turnLimit (w : Simulation) : Nat :=
  64 * (1 + w.ready.length + w.mailSize + w.state.passes.length + w.state.sleepers.length +
    w.state.ledger.pending.size + w.state.cluster.faults.failures)

/-- Lets everything happen that happens without time going by. -/
def settle (w : Simulation) : Simulation := w.drain w.turnLimit

/-! ## Time -/

/-- The times at which a task that is asleep has a turn. -/
def ringTimes (w : Simulation) : Task → List Nat
  | .controller => []
  | .pass serial =>
    match (w.state.pass? serial).map Pass.stage with
    | some (.fetching _ since ready) =>
      [ringTime ready, ringTime (since + w.controller.config.timeout.nanos)]
    | _ => []
  | .timer generation =>
    match w.state.sleeper? generation with
    | some t => [ringTime t.due]
    | none => []

/-- The time of the next turn. -/
def nextRing? (w : Simulation) : Option Nat := (w.asleep.flatMap w.ringTimes).min?

/-- Moves time on, and gives turns to the tasks that are due. -/
def moveTo (w : Simulation) (time : Nat) : Simulation :=
  let w := w.happen (.advance (time - w.state.now))
  (w.asleep.filter fun task => (w.ringTimes task).any (· ≤ time)).foldl wake w

/-- Lets time go by up to `target`, with all that happens before. What is due then has its turns
later. -/
def advanceTo (w : Simulation) (target : Nat) : (steps : Nat) → Simulation
  | 0 => w
  | steps + 1 =>
    match w.nextRing? with
    | none => w.moveTo target
    | some time =>
      if time < target then (w.moveTo time).settle.advanceTo target steps else w.moveTo target

/-! ## Driving a simulation -/

/-- Waits for a number of milliseconds. -/
def sleep (w : Simulation) (millis : Nat) : Simulation :=
  if millis = 0 then w
  else
    let target := w.state.now + millis * nanosPerMilli
    w.settle.advanceTo target (millis + 1)

/-- Hands in a notification, after waiting for a place in the queue if there is none. It is refused
once the controller has ended. -/
def notify (w : Simulation) (n : Notification) : Except Error Simulation :=
  let w := if w.state.queue.length < w.controller.config.queueCapacity then w else w.settle
  if w.state.isLive then .ok (w.tell (.notify n)) else .error .shutdown

/-- The milliseconds between two looks at a condition. -/
def pollInterval : Nat := 10

/-- Looks again and again whether so many passes have ended, until `deadline`. -/
def pollFor (w : Simulation) (reconciles deadline : Nat) : (steps : Nat) → Simulation × Bool
  | 0 => (w, false)
  | steps + 1 =>
    if reconciles ≤ w.state.stats.reconciles then (w, true)
    else if deadline ≤ w.state.now then (w, false)
    else (w.sleep pollInterval).pollFor reconciles deadline steps

/-- Waits until so many passes have ended, for a number of milliseconds at most. -/
def waitFor (w : Simulation) (reconciles millis : Nat) : Simulation × Bool :=
  w.pollFor reconciles (w.state.now + millis * nanosPerMilli) (millis / pollInterval + 2)

/-- Ends the controller, and waits until all of its tasks have ended. -/
def shutdown (w : Simulation) : Simulation :=
  { w with closing := true }.wake .controller |>.settle

/-- Changes the cluster. -/
def change (w : Simulation) (c : ClusterChange) : Simulation := w.happen (.change c)

/-- Sets the clock. -/
def setClock (w : Simulation) (clock : Instant) : Simulation := w.happen (.setClock clock)

/-- The running time in milliseconds. -/
def millis (w : Simulation) : Nat := w.state.now / nanosPerMilli

end Simulation

end ClusterVitals
