import Std.Data.ExtTreeMap

/-!
# Names of cluster objects

An object of a cluster is known by its namespace and its name, a container by the pod it runs in and
its own name. Both kinds of names are ordered field by field, texts by their characters.
-/

namespace ClusterVitals

/-- The namespace and the name of an object. -/
structure ObjectKey where
  ns : String
  name : String
  deriving DecidableEq, Repr

/-- A container of a pod. -/
structure ContainerIdentity where
  pod : ObjectKey
  container : String
  deriving DecidableEq, Repr

namespace ObjectKey

/-- The namespace and the name, with a slash between them. -/
def text (key : ObjectKey) : String := key.ns ++ "/" ++ key.name

/-- The order of keys: by namespace, then by name. -/
instance : Ord ObjectKey := ⟨compareLex (compareOn ns) (compareOn name)⟩

instance : Std.TransOrd ObjectKey :=
  inferInstanceAs (Std.TransCmp (compareLex (compareOn ObjectKey.ns) (compareOn ObjectKey.name)))

instance : Std.LawfulEqOrd ObjectKey where
  compare_self {a} := by
    show compareLex (compareOn ns) (compareOn name) a a = .eq
    simp only [compareLex, compareOn, Std.ReflCmp.compare_self, Ordering.then_eq_eq, and_self]
  eq_of_compare {a b} h := by
    have h : compareLex (compareOn ns) (compareOn name) a b = .eq := h
    simp only [compareLex, compareOn, Ordering.then_eq_eq,
      Std.LawfulEqCmp.compare_eq_iff_eq] at h
    cases a; cases b; simp_all

end ObjectKey

namespace ContainerIdentity

/-- Namespace, pod and container, with slashes between them. -/
def text (identity : ContainerIdentity) : String :=
  identity.pod.text ++ "/" ++ identity.container

/-- The container runs in a given pod. -/
def belongsTo (identity : ContainerIdentity) (pod : ObjectKey) : Bool := identity.pod = pod

/-- The order of identities: by pod, then by container. -/
instance : Ord ContainerIdentity := ⟨compareLex (compareOn pod) (compareOn container)⟩

instance : Std.TransOrd ContainerIdentity :=
  inferInstanceAs
    (Std.TransCmp (compareLex (compareOn ContainerIdentity.pod) (compareOn container)))

instance : Std.LawfulEqOrd ContainerIdentity where
  compare_self {a} := by
    show compareLex (compareOn pod) (compareOn container) a a = .eq
    simp only [compareLex, compareOn, Std.ReflCmp.compare_self, Ordering.then_eq_eq, and_self]
  eq_of_compare {a b} h := by
    have h : compareLex (compareOn pod) (compareOn container) a b = .eq := h
    simp only [compareLex, compareOn, Ordering.then_eq_eq,
      Std.LawfulEqCmp.compare_eq_iff_eq] at h
    cases a; cases b; simp_all

end ContainerIdentity

end ClusterVitals
