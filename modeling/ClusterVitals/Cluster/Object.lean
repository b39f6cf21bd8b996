import ClusterVitals.Cluster.Identity
import ClusterVitals.Instant.Basic

/-!
# Cluster objects

Pods with the status of their containers, and secrets with their data, as they are fetched.
-/

namespace ClusterVitals

/-- The last exit of a container. -/
structure Termination where
  reason : String
  exitCode : Int
  finishedAt : Instant
  deriving DecidableEq, Repr

/-- What is known of one container of a pod. -/
structure ContainerStatus where
  name : String
  restarts : Nat
  lastTermination : Option Termination
  deriving DecidableEq, Repr

/-- A pod. -/
structure Pod where
  key : ObjectKey
  containers : List ContainerStatus
  deriving DecidableEq, Repr

/-- A secret. Its data is in ascending order of the data keys. -/
structure Secret where
  key : ObjectKey
  data : Std.ExtTreeMap String (List UInt8)

namespace Secret

/-- A secret with data entries, where a later entry of a data key counts. -/
def ofEntries (key : ObjectKey) (entries : List (String × List UInt8)) : Secret :=
  ⟨key, entries.foldl (fun data (name, bytes) => data.insert name bytes) ∅⟩

/-- The data entries in ascending order of the data keys. -/
def entries (secret : Secret) : List (String × List UInt8) := secret.data.toList

end Secret

end ClusterVitals
