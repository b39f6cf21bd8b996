import ClusterVitals.Config.Basic
import ClusterVitals.Reconcile.Plan

/-!
# Dispatcher

One secret is watched for its certificates; every other object is taken for a pod. The dispatcher
decides which way a notification goes, what has to be fetched for it, and what is done with the
answer.
-/

namespace ClusterVitals

/-- The secret that is watched, and the time after which it is looked at again. -/
structure Dispatcher where
  subject : ObjectKey
  recheckInterval : Duration
  deriving DecidableEq, Repr

namespace Dispatcher

/-- The dispatcher of certificate settings. -/
def ofConfig (c : CertificateConfig) : Dispatcher := ⟨c.subject, c.recheckInterval⟩

/-- The way of an object. -/
def route (d : Dispatcher) (key : ObjectKey) : Route :=
  if key = d.subject then .certificate else .podRestart

/-- What is to be fetched for a notification; nothing for a pod that was deleted. -/
def need (d : Dispatcher) (n : Notification) : Option ObjectKind :=
  match d.route n.key, n.kind with
  | .certificate, _ => some .secret
  | .podRestart, .changed => some .pod
  | .podRestart, .deleted => none

/-- What is told of a notification before anything is done. -/
def opening (d : Dispatcher) (n : Notification) : LogEvent := .dispatching n (d.route n.key)

/-- The plan for a pod that was deleted. -/
def deletionPlan (pod : ObjectKey) : Plan := ⟨[.evict pod], .ok .done⟩

/-- The plan for the answer to a fetch. -/
def plan (d : Dispatcher) (key : ObjectKey) (now : Instant) (late : Error)
    (allowed : Option Nat) : Answer → Plan
  | .pod found => podPlan key late allowed found
  | .secret found => certificatePlan key d.recheckInterval now late allowed found

end Dispatcher

end ClusterVitals
