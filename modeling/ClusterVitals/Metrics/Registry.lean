import ClusterVitals.Binary64.Basic
import ClusterVitals.Metrics.Families
import ClusterVitals.Metrics.Labels

/-!
# Gauge registry

A registry holds families of gauges: a help text and a value for each label set. Both levels are
maps in ascending order, so a snapshot lists families by name and samples by label set, and two
registries with the same contents are equal.
-/

namespace ClusterVitals

/-- A family: its help text and its gauges. -/
structure Family where
  help : String
  cells : Std.ExtTreeMap LabelSet Binary64

/-- Families of gauges by name. -/
structure Registry where
  families : Std.ExtTreeMap String Family

/-- One gauge of a snapshot. -/
structure Sample where
  labels : LabelSet
  value : Binary64
  deriving DecidableEq, Repr

/-- One family of a snapshot. -/
structure FamilySnapshot where
  name : String
  help : String
  samples : List Sample
  deriving DecidableEq, Repr

/-- The contents of a registry at one time. -/
abbrev Snapshot := List FamilySnapshot

namespace Family

/-- A family without help and without gauges. -/
def empty : Family := ⟨"", ∅⟩

end Family

namespace Registry

/-- A registry without families. -/
def empty : Registry := ⟨∅⟩

/-- The family of a name, as if it were empty when there is none. -/
def family (r : Registry) (metric : String) : Family :=
  r.families[metric]?.getD .empty

/-- Gives a family its help text, and creates it if there is none. -/
def declare (r : Registry) (metric help : String) : Registry :=
  ⟨r.families.insert metric { r.family metric with help }⟩

/-- Sets a gauge, in a family that is created if there is none. -/
def set (r : Registry) (metric : String) (labels : LabelSet) (value : Binary64) : Registry :=
  let family := r.family metric
  ⟨r.families.insert metric { family with cells := family.cells.insert labels value }⟩

/-- A registry with the published families declared. -/
def standard : Registry :=
  Metrics.families.foldl (fun r declaration => r.declare declaration.name declaration.help) empty

/-- The value of the gauge with exactly these labels. -/
def get? (r : Registry) (metric : String) (labels : LabelSet) : Option Binary64 :=
  (r.family metric).cells[labels]?

/-- The number of gauges in a family. -/
def seriesCount (r : Registry) (metric : String) : Nat :=
  (r.family metric).cells.size

/-- The gauges of a family whose labels contain a subset, in the order of label sets. -/
def find (r : Registry) (metric : String) (subset : LabelSet) : List (LabelSet × Binary64) :=
  (r.family metric).cells.toList.filter fun (labels, _) => labels.contains subset

/-- Removes the gauges of a family whose labels contain a subset, and counts them. The family
stays. -/
def deleteMatching (r : Registry) (metric : String) (subset : LabelSet) : Registry × Nat :=
  match r.families[metric]? with
  | none => (r, 0)
  | some family =>
    let kept := family.cells.filter fun labels _ => !labels.contains subset
    (⟨r.families.insert metric { family with cells := kept }⟩, family.cells.size - kept.size)

/-- All families in the order of names, with their gauges in the order of label sets. -/
def snapshot (r : Registry) : Snapshot :=
  r.families.toList.map fun (name, family) =>
    ⟨name, family.help, family.cells.toList.map fun (labels, value) => ⟨labels, value⟩⟩

@[simp] theorem get?_empty (metric : String) (labels : LabelSet) :
    empty.get? metric labels = none := by
  simp [empty, get?, family, Family.empty]

/-- A help text changes no gauge. -/
@[simp] theorem get?_declare (r : Registry) (metric help other : String) (labels : LabelSet) :
    (r.declare metric help).get? other labels = r.get? other labels := by
  by_cases h : metric = other
  · subst h
    simp [declare, get?, family]
  · simp [declare, get?, family, Std.ExtTreeMap.getElem?_insert, h]

/-- Setting a gauge changes this gauge and no other. -/
theorem get?_set (r : Registry) (metric other : String) (labels others : LabelSet)
    (value : Binary64) :
    (r.set metric labels value).get? other others =
      if metric = other ∧ labels = others then some value else r.get? other others := by
  by_cases h : metric = other
  · subst h
    by_cases hl : labels = others <;>
      simp [set, get?, family, Std.ExtTreeMap.getElem?_insert, hl]
  · simp [set, get?, family, Std.ExtTreeMap.getElem?_insert, h]

/-- Removing gauges takes those of the family whose labels contain the subset, and no others. -/
theorem get?_deleteMatching (r : Registry) (metric other : String) (subset labels : LabelSet) :
    (r.deleteMatching metric subset).1.get? other labels =
      if metric = other ∧ labels.contains subset then none else r.get? other labels := by
  unfold deleteMatching
  split
  · rename_i hnone
    by_cases h : metric = other
    · -- a family that does not exist has no gauges to lose
      subst h
      simp [get?, family, hnone, Family.empty]
    · simp [h]
  · rename_i found hfound
    by_cases h : metric = other
    · subst h
      simp only [get?, family, hfound, Std.ExtTreeMap.getElem?_insert_self, Option.getD_some,
        Std.ExtTreeMap.getElem?_filter']
      cases found.cells[labels]? <;> cases labels.contains subset <;> simp
    · simp [get?, family, Std.ExtTreeMap.getElem?_insert, h]

end Registry

end ClusterVitals
