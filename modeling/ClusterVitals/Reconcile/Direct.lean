import ClusterVitals.Duration.Timer
import ClusterVitals.Reconcile.Dispatcher

/-!
# Direct passes

Passes that are run one by one, without a controller: each starts when the one before has ended, and
time goes by only while a fetch is under way.
-/

namespace ClusterVitals

/-- A dispatcher with the cluster it looks at and the vitals it keeps. `elapsed` is the running time
in nanoseconds, and `clock` tells the time of day. -/
structure DirectRun where
  dispatcher : Dispatcher
  cluster : Cluster
  vitals : Vitals
  clock : Instant
  elapsed : Nat

namespace DirectRun

/-- A dispatcher before its first pass. -/
def start (dispatcher : Dispatcher) (clock : Instant) : DirectRun :=
  ⟨dispatcher, .empty, .initial, clock, 0⟩

/-- The looks at a deadline that find time left, when no time goes by between them. -/
def looksAllowed (since now : Nat) : Option Duration → Option Nat
  | none => none
  | some timeout => if since + timeout.nanos ≤ now then some 0 else none

/-- The error of a pass that finds no time left. -/
def lateError (key : ObjectKey) (timeout : Option Duration) : Error :=
  .timeout key (timeout.getD .zero)

/-- Fetches an object and carries out the plan for the answer. -/
def fetchPass (r : DirectRun) (kind : ObjectKind) (key : ObjectKey) (timeout : Option Duration) :
    DirectRun × PassResult × List LogEvent :=
  let cluster := r.cluster.countFetch kind
  let elapsed := ringTime (r.elapsed + (cluster.faults.latency.getD .zero).nanos)
  let (cluster, answer, injected) := cluster.answer kind key
  let allowed := looksAllowed r.elapsed elapsed timeout
  let plan := r.dispatcher.plan key r.clock (lateError key timeout) allowed answer
  let (vitals, events) := r.vitals.applyAll plan.effects
  ({ r with cluster, vitals, elapsed }, plan.result,
    (if injected then [.failureInjected key] else []) ++ events)

/-- Carries out the pass for a notification. -/
def dispatch (r : DirectRun) (n : Notification) (timeout : Option Duration) :
    DirectRun × PassResult × List LogEvent :=
  let opening := r.dispatcher.opening n
  match r.dispatcher.need n with
  | some kind =>
    let (r, result, events) := r.fetchPass kind n.key timeout
    (r, result, opening :: events)
  | none =>
    let plan := Dispatcher.deletionPlan n.key
    let (vitals, events) := r.vitals.applyAll plan.effects
    ({ r with vitals }, plan.result, opening :: events)

/-- Carries out a certificate pass for any secret. -/
def reconcileCertificate (r : DirectRun) (key : ObjectKey) (timeout : Option Duration) :
    DirectRun × PassResult × List LogEvent :=
  r.fetchPass .secret key timeout

end DirectRun

end ClusterVitals
