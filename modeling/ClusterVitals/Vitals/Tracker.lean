import ClusterVitals.Cluster.Object

/-!
# Restart tracker

The tracker keeps the highest restart counter that was reported for each container. A restart is new
when its counter exceeds that one and the last exit of the container is known; a counter without an
exit waits until the exit is known.
-/

namespace ClusterVitals

/-- The highest reported counter of each container. -/
structure Tracker where
  counters : Std.ExtTreeMap ContainerIdentity Nat

/-- What offering a counter told. -/
structure Observation where
  isNew : Bool
  prior : Nat
  deriving DecidableEq, Repr

/-- A restart to report. -/
structure Restart where
  identity : ContainerIdentity
  counter : Nat
  termination : Termination
  deriving DecidableEq, Repr

namespace Tracker

/-- A tracker that has seen nothing. -/
def empty : Tracker := ⟨∅⟩

/-- The counter kept for a container. -/
def prior? (t : Tracker) (identity : ContainerIdentity) : Option Nat := t.counters[identity]?

/-- The number of containers with a counter. -/
def size (t : Tracker) : Nat := t.counters.size

/-- Offers a counter of a container, and tells whether its last exit is known. -/
def observe (t : Tracker) (identity : ContainerIdentity) (counter : Nat) (hasExit : Bool) :
    Tracker × Observation :=
  let prior := (t.prior? identity).getD 0
  if hasExit ∧ prior < counter then
    (⟨t.counters.insert identity counter⟩, ⟨true, prior⟩)
  else (t, ⟨false, prior⟩)

/-- Offers the status of a container of a pod, and gives the restart to report. -/
def observeStatus (t : Tracker) (pod : ObjectKey) (status : ContainerStatus) :
    Tracker × Option Restart :=
  let identity := ⟨pod, status.name⟩
  let (t, observation) := t.observe identity status.restarts status.lastTermination.isSome
  (t, if observation.isNew then
      status.lastTermination.map fun termination => ⟨identity, status.restarts, termination⟩
    else none)

/-- Forgets the containers of a pod, and counts them. -/
def evict (t : Tracker) (pod : ObjectKey) : Tracker × Nat :=
  let kept := t.counters.filter fun identity _ => !identity.belongsTo pod
  (⟨kept⟩, t.counters.size - kept.size)

@[simp] theorem prior?_empty (identity : ContainerIdentity) : empty.prior? identity = none := by
  simp [empty, prior?]

/-- Only a higher counter with a known exit is kept, and only for its own container. -/
theorem prior?_observe (t : Tracker) (identity other : ContainerIdentity) (counter : Nat)
    (hasExit : Bool) :
    (t.observe identity counter hasExit).1.prior? other =
      if hasExit ∧ (t.prior? identity).getD 0 < counter ∧ identity = other then some counter
      else t.prior? other := by
  unfold observe
  by_cases h : hasExit ∧ (t.prior? identity).getD 0 < counter
  · have hlt : t.counters[identity]?.getD 0 < counter := h.2
    rw [if_pos h]
    simp [prior?, Std.ExtTreeMap.getElem?_insert, h.1, hlt]
  · rw [if_neg h, if_neg fun h' => h ⟨h'.1, h'.2.1⟩]

/-- Forgetting a pod takes the counters of its containers and no others. -/
theorem prior?_evict (t : Tracker) (pod : ObjectKey) (identity : ContainerIdentity) :
    (t.evict pod).1.prior? identity =
      if identity.belongsTo pod then none else t.prior? identity := by
  simp only [evict, prior?, Std.ExtTreeMap.getElem?_filter']
  cases t.counters[identity]? <;> cases identity.belongsTo pod <;> simp

end Tracker

end ClusterVitals
