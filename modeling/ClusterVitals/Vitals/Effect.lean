import ClusterVitals.Certificate.Evaluate
import ClusterVitals.Log.Event
import ClusterVitals.Metrics.Registry
import ClusterVitals.Vitals.Tracker

/-!
# Vitals and the effects on them

The vitals are what is known and published of a cluster: the restart tracker and the gauge registry.
Passes change them by effects, each of which is applied as a whole: a restart is recorded and
published by one effect, and so are the two gauges of a certificate.
-/

namespace ClusterVitals

/-- What is known and published of a cluster. -/
structure Vitals where
  tracker : Tracker
  registry : Registry

/-- A change of the vitals, or a report that changes nothing. -/
inductive Effect where
  /-- The status of a container is offered to the tracker, and a new restart is published. -/
  | offer (pod : ObjectKey) (status : ContainerStatus)
  /-- The tracker forgets a pod. -/
  | evict (pod : ObjectKey)
  /-- A certificate is read, and its end is published as seen at an instant. -/
  | assess (secret : ObjectKey) (dataKey : String) (material : List UInt8) (now : Instant)
  /-- The gauges of a secret are removed. -/
  | clear (secret : ObjectKey)
  | report (event : LogEvent)

/-- The labels under which a restart is published. -/
def Restart.labels (r : Restart) : LabelSet :=
  .ofList [("namespace", r.identity.pod.ns), ("pod", r.identity.pod.name),
    ("container", r.identity.container), ("reason", r.termination.reason),
    ("exit_code", toString r.termination.exitCode)]

/-- The value with which a restart is published. -/
def Restart.value (r : Restart) : Binary64 := .ofInt r.termination.finishedAt.unixSeconds

/-- The labels that all gauges of a secret share. -/
def secretLabels (secret : ObjectKey) : LabelSet :=
  .ofList [("namespace", secret.ns), ("secret_name", secret.name)]

/-- The labels of the gauges of a certificate. -/
def certificateLabels (secret : ObjectKey) (dataKey : String) : LabelSet :=
  .ofList [("namespace", secret.ns), ("secret_name", secret.name), ("cert_type", dataKey)]

namespace Vitals

/-- Nothing known, and the published families without gauges. -/
def initial : Vitals := ⟨.empty, .standard⟩

/-- Offers the status of a container, and publishes a new restart. -/
def offer (v : Vitals) (pod : ObjectKey) (status : ContainerStatus) : Vitals × List LogEvent :=
  match v.tracker.observeStatus pod status with
  | (tracker, none) => ({ v with tracker }, [])
  | (tracker, some r) =>
    (⟨tracker, v.registry.set Metrics.terminationFamily.name r.labels r.value⟩,
      [.restartDetected pod.name status.name status.restarts r.termination.reason])

/-- Forgets a pod. -/
def evict (v : Vitals) (pod : ObjectKey) : Vitals × List LogEvent :=
  let (tracker, count) := v.tracker.evict pod
  ({ v with tracker }, [.evicted pod count])

/-- Publishes the end of a certificate. -/
def publish (v : Vitals) (secret : ObjectKey) (dataKey : String) (expires : Instant)
    (daysLeft : Binary64) : Vitals :=
  let labels := certificateLabels secret dataKey
  let registry := v.registry.set Metrics.expirationFamily.name labels (.ofInt expires.unixSeconds)
  { v with registry := registry.set Metrics.daysLeftFamily.name labels daysLeft }

/-- Reads a certificate, and publishes its end if it can be read. -/
def assess (v : Vitals) (secret : ObjectKey) (dataKey : String) (material : List UInt8)
    (now : Instant) : Vitals × List LogEvent :=
  match Certificate.evaluate material with
  | .ok expires =>
    let daysLeft := expires.daysUntil now
    (v.publish secret dataKey expires daysLeft, [.expirationRead secret dataKey expires daysLeft])
  | .error _ => (v, [.expirationUnread secret dataKey])

/-- Removes the gauges of a secret from both certificate families. -/
def clear (v : Vitals) (secret : ObjectKey) : Vitals × List LogEvent :=
  let labels := secretLabels secret
  let (registry, first) := v.registry.deleteMatching Metrics.expirationFamily.name labels
  let (registry, second) := registry.deleteMatching Metrics.daysLeftFamily.name labels
  ({ v with registry }, [.secretGone secret (first + second)])

/-- Applies one effect, and tells what it reports. -/
def apply (v : Vitals) : Effect → Vitals × List LogEvent
  | .offer pod status => v.offer pod status
  | .evict pod => v.evict pod
  | .assess secret dataKey material now => v.assess secret dataKey material now
  | .clear secret => v.clear secret
  | .report event => (v, [event])

/-- Applies effects in order, and tells what they report. -/
def applyAll (v : Vitals) : List Effect → Vitals × List LogEvent
  | [] => (v, [])
  | e :: rest =>
    let (v, events) := v.apply e
    let (v, more) := v.applyAll rest
    (v, events ++ more)

/-- Effects can be applied in parts. -/
theorem applyAll_append (v : Vitals) (first second : List Effect) :
    v.applyAll (first ++ second) =
      (((v.applyAll first).1.applyAll second).1,
        (v.applyAll first).2 ++ ((v.applyAll first).1.applyAll second).2) := by
  induction first generalizing v with
  | nil => simp [applyAll]
  | cons e rest ih => simp [applyAll, ih, List.append_assoc]

end Vitals

end ClusterVitals
