import ClusterVitals.Config.Backoff
import ClusterVitals.Controller.Pending
import ClusterVitals.Reconcile.Plan
import Std.Data.ExtTreeSet

/-!
# Ledger

The books that a controller keeps of its objects: which of them have a pass under way, what is held
back for them, how often in a row their passes failed, and which timer will bring them up again.
`schedule` takes a notification, `complete` the end of a pass and `fire` the message of a timer. Each
gives the new books and the orders to carry out: passes to start, timers to arm and to stop.
-/

namespace ClusterVitals

/-- What a controller has counted. -/
structure Stats where
  /-- Passes that ended. -/
  reconciles : Nat
  /-- Passes that ended with an error. -/
  failures : Nat
  /-- Timers armed for another try. -/
  retries : Nat
  /-- Timers armed for another look after a success. -/
  requeues : Nat
  deriving DecidableEq, Repr

/-- Nothing counted. -/
def Stats.zero : Stats := ⟨0, 0, 0, 0⟩

/-- A timer that will bring up a notification. Later timers have higher generations. -/
structure Timer where
  generation : Nat
  notification : Notification
  delay : Duration
  deriving DecidableEq, Repr

/-- What the books order. -/
inductive Order where
  | start (request : Request)
  | arm (timer : Timer)
  /-- Stops a timer that was replaced. -/
  | stop (generation : Nat)
  deriving DecidableEq, Repr

/-- The books of a controller. -/
structure Ledger where
  inFlight : Std.ExtTreeSet ObjectKey
  pending : Std.ExtTreeMap ObjectKey Pending
  failures : Std.ExtTreeMap ObjectKey Nat
  /-- The generation of the timer of each object. -/
  timers : Std.ExtTreeMap ObjectKey Nat
  lastGeneration : Nat
  nextSerial : Nat
  stats : Stats

namespace Ledger

/-- Empty books. -/
def empty : Ledger := ⟨∅, ∅, ∅, ∅, 0, 0, .zero⟩

/-- The largest number of failures in a row that is counted. -/
def largestStreak : Nat := Nat.pow 2 32 - 1

/-- Starts a pass for a request. -/
def start (l : Ledger) (r : Request) : Ledger × List Order :=
  ({ l with inFlight := l.inFlight.insert r.key }, [.start r])

/-- Holds back a request. -/
def hold (l : Ledger) (r : Request) : Ledger :=
  { l with pending := l.pending.insert r.key ((l.pending[r.key]?.getD .empty).push r) }

/-- Takes a notification: starts a pass for it, or holds it back behind the pass under way. -/
def schedule (l : Ledger) (n : Notification) : Ledger × List Order :=
  let r : Request := ⟨l.nextSerial, n⟩
  let l := { l with nextSerial := l.nextSerial + 1 }
  if l.inFlight.contains n.key then (l.hold r, []) else l.start r

/-- Takes the request for an object that runs next. -/
def takePending (l : Ledger) (key : ObjectKey) : Ledger × Option Request :=
  match l.pending[key]? with
  | none => (l, none)
  | some held =>
    let (held, next) := held.pop
    let pending :=
      if held.isEmpty then l.pending.erase key else l.pending.insert key held
    ({ l with pending }, next)

/-- Starts a pass for the request for an object that runs next, if one is held back. -/
def startPending (l : Ledger) (key : ObjectKey) : Ledger × List Order :=
  match l.takePending key with
  | (l, none) => (l, [])
  | (l, some next) => l.start next

/-- Arms the timer of an object, in the place of an earlier one. -/
def arm (l : Ledger) (n : Notification) (delay : Duration) : Ledger × List Order :=
  let generation := l.lastGeneration + 1
  ({ l with lastGeneration := generation, timers := l.timers.insert n.key generation },
    .arm ⟨generation, n, delay⟩ :: (l.timers[n.key]?.map Order.stop).toList)

/-- Notes the success of a pass, and arms the timer it asks for. -/
def succeed (l : Ledger) (key : ObjectKey) (outcome : Outcome) : Ledger × List Order :=
  let l := { l with failures := l.failures.erase key }
  match outcome.requeueAfter with
  | none => (l, [])
  | some delay =>
    { l with stats := { l.stats with requeues := l.stats.requeues + 1 } }.arm (.ofChange key) delay

/-- The failures in a row of an object. -/
def streak (l : Ledger) (key : ObjectKey) : Nat := l.failures[key]?.getD 0

/-- Counts a failure that is worth another try, and opens the entry of the failures in a row. -/
def countRetry (l : Ledger) (key : ObjectKey) : Ledger :=
  { l with
    stats := { l.stats with failures := l.stats.failures + 1, retries := l.stats.retries + 1 }
    failures := l.failures.insertIfNew key 0 }

/-- Notes one more failure in a row, and arms the timer for another try. -/
def retry (l : Ledger) (n : Notification) (delay : Duration) : Ledger × List Order :=
  { l with
    failures := l.failures.insert n.key (min (l.streak n.key + 1) largestStreak) }.arm n delay

/-- Sees to another try. If its delay is not a duration, nothing further is noted: the error is the
books as they stand then. -/
def tryAgain (l : Ledger) (backoff : Backoff) (n : Notification) :
    Except Ledger (Ledger × List Order × List LogEvent) :=
  (backoff.delayFor? (l.streak n.key)).elim (.error l) fun delay =>
    let (l, orders) := l.retry n delay
    .ok (l, orders, [.retrying n.key delay])

/-- Notes a failure that is not worth another try. -/
def giveUp (l : Ledger) (key : ObjectKey) : Ledger :=
  { l with
    stats := { l.stats with failures := l.stats.failures + 1 }
    failures := l.failures.erase key }

/-- Closes the entry of the pass of an object that ended. -/
def release (l : Ledger) (key : ObjectKey) : Ledger :=
  { l with
    inFlight := l.inFlight.erase key
    stats := { l.stats with reconciles := l.stats.reconciles + 1 } }

/-- Notes how a pass ended, and tells what is logged of it. A failure is counted before its delay is
asked for. -/
def settle (l : Ledger) (backoff : Backoff) (n : Notification) :
    PassResult → Except Ledger (Ledger × List Order × List LogEvent)
  | .ok outcome =>
    let (l, orders) := l.succeed n.key outcome
    .ok (l, orders, [])
  | .error e =>
    if e.isRetryable then (l.countRetry n.key).tryAgain backoff n
    else .ok (l.giveUp n.key, [], [.failed n.key])

/-- Takes the end of a pass, and starts the next one of its object. Whatever becomes of the result,
the object is released first. -/
def complete (l : Ledger) (backoff : Backoff) (r : Request) (result : PassResult) :
    Except Ledger (Ledger × List Order × List LogEvent) := do
  let (l, orders, events) ← (l.release r.key).settle backoff r.notification result
  let (l, more) := l.startPending r.key
  return (l, orders ++ more, events)

/-- Takes the message of a timer. That of a timer that was replaced is passed over. -/
def fire (l : Ledger) (generation : Nat) (n : Notification) : Ledger × List Order :=
  if l.timers[n.key]? = some generation then
    { l with timers := l.timers.erase n.key }.schedule n
  else (l, [])

end Ledger

end ClusterVitals
