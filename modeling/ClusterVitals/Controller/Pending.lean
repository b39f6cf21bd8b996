import ClusterVitals.Cluster.Notification

/-!
# Requests and held requests

A request is a notification with the number under which it was scheduled. While a pass of an object
is under way, the requests for the object are held back, at most one of each kind: a deletion makes
a change held before it pointless, and a later request takes the place of one of its kind.
-/

namespace ClusterVitals

/-- A notification that was scheduled. Later requests have higher serials. -/
structure Request where
  serial : Nat
  notification : Notification
  deriving DecidableEq, Repr

namespace Request

/-- The object of a request. -/
def key (r : Request) : ObjectKey := r.notification.key

end Request

/-- The requests that are held back for one object. -/
structure Pending where
  deleted : Option Request
  changed : Option Request
  deriving DecidableEq, Repr

namespace Pending

/-- Nothing held back. -/
def empty : Pending := ⟨none, none⟩

/-- Nothing is held back. -/
def isEmpty (p : Pending) : Bool := p.deleted.isNone && p.changed.isNone

/-- Holds back one more request. -/
def push (p : Pending) (r : Request) : Pending :=
  match r.notification.kind with
  | .deleted => ⟨some r, none⟩
  | .changed => { p with changed := some r }

/-- Takes the request that runs next: the deletion, or else the change. -/
def pop (p : Pending) : Pending × Option Request :=
  match p.deleted with
  | some r => ({ p with deleted := none }, some r)
  | none => ({ p with changed := none }, p.changed)

theorem isEmpty_iff {p : Pending} : p.isEmpty = true ↔ p = empty := by
  cases p with
  | mk deleted changed => cases deleted <;> cases changed <;> simp [isEmpty, empty]

/-- A request comes out as long as one is held back. -/
theorem pop_eq_none_iff {p : Pending} : p.pop.2 = none ↔ p = empty := by
  cases p with
  | mk deleted changed => cases deleted <;> cases changed <;> simp [pop, empty]

end Pending

end ClusterVitals
