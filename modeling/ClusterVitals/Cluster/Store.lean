import ClusterVitals.Cluster.Error
import ClusterVitals.Cluster.Object

/-!
# Clusters

The objects of a cluster, with faults that fetches run into: a latency, and a number of fetches that
fail. A fetch is counted when it starts. After the latency in force at its start it fails if a failure
is left, and otherwise answers the object as it is then.
-/

namespace ClusterVitals

/-- What fetches run into. -/
structure Faults where
  failures : Nat
  latency : Option Duration
  deriving DecidableEq, Repr

/-- No faults. -/
def Faults.none : Faults := ⟨0, .none⟩

/-- The kinds of objects that are fetched. -/
inductive ObjectKind where
  | pod
  | secret
  deriving DecidableEq, Repr

/-- The objects of a cluster, the faults of its fetches, and the numbers of fetches. -/
structure Cluster where
  pods : Std.ExtTreeMap ObjectKey Pod
  secrets : Std.ExtTreeMap ObjectKey Secret
  faults : Faults
  podFetches : Nat
  secretFetches : Nat

/-- The answer to a fetch. -/
inductive Answer where
  | pod (found : Except Error Pod)
  | secret (found : Except Error Secret)

namespace Cluster

/-- A cluster without objects and faults. -/
def empty : Cluster := ⟨∅, ∅, .none, 0, 0⟩

/-- Adds a pod, in the place of one with its key. -/
def putPod (c : Cluster) (pod : Pod) : Cluster := { c with pods := c.pods.insert pod.key pod }

/-- Adds a secret, in the place of one with its key. -/
def putSecret (c : Cluster) (secret : Secret) : Cluster :=
  { c with secrets := c.secrets.insert secret.key secret }

/-- Removes a pod, and gives it back if there was one. -/
def removePod (c : Cluster) (key : ObjectKey) : Cluster × Option Pod :=
  ({ c with pods := c.pods.erase key }, c.pods[key]?)

/-- Removes a secret, and gives it back if there was one. -/
def removeSecret (c : Cluster) (key : ObjectKey) : Cluster × Option Secret :=
  ({ c with secrets := c.secrets.erase key }, c.secrets[key]?)

/-- Replaces the faults. -/
def inject (c : Cluster) (faults : Faults) : Cluster := { c with faults }

/-- Counts a fetch that starts. -/
def countFetch (c : Cluster) : ObjectKind → Cluster
  | .pod => { c with podFetches := c.podFetches + 1 }
  | .secret => { c with secretFetches := c.secretFetches + 1 }

/-- The object of a key, as the answer to a fetch. -/
def lookup (c : Cluster) (kind : ObjectKind) (key : ObjectKey) : Answer :=
  match kind with
  | .pod => .pod (c.pods[key]?.elim (.error (.notFound key)) .ok)
  | .secret => .secret (c.secrets[key]?.elim (.error (.notFound key)) .ok)

/-- An answer that the fetch failed. -/
def failedAnswer (kind : ObjectKind) (error : Error) : Answer :=
  match kind with
  | .pod => .pod (.error error)
  | .secret => .secret (.error error)

/-- Answers a fetch whose latency is over, and tells whether it was made to fail. -/
def answer (c : Cluster) (kind : ObjectKind) (key : ObjectKey) : Cluster × Answer × Bool :=
  match c.faults.failures with
  | 0 => (c, c.lookup kind key, false)
  | n + 1 =>
    ({ c with faults := { c.faults with failures := n } },
      failedAnswer kind (.fetch key "injected failure"), true)

end Cluster

end ClusterVitals
