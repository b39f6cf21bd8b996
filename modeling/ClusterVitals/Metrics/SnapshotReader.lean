import ClusterVitals.Json.Parser
import ClusterVitals.Json.Record
import ClusterVitals.Metrics.Registry

/-!
# Snapshots in JSON

Reading a snapshot from a JSON text. Families and samples keep the order of the text.
-/

namespace ClusterVitals.Snapshot

/-- The labels of a sample: an object of texts, in which the last value of a name counts. -/
def labelsOfJson? : Json → Option LabelSet
  | .object members => do
    let pairs ← members.mapM fun (name, value) => do return (← name, ← value.asString?)
    return LabelSet.ofList pairs
  | _ => none

/-- A sample: its labels and its value. -/
def sampleOfJson? (j : Json) : Option Sample := do
  match ← j.record? ["labels", "value"] with
  | [labels, value] => return ⟨← labelsOfJson? labels, ← value.asBinary64?⟩
  | _ => none

/-- A family: its name, its help text and its samples. -/
def familyOfJson? (j : Json) : Option FamilySnapshot := do
  match ← j.record? ["name", "help", "samples"] with
  | [name, help, samples] =>
    return ⟨← name.asString?, ← help.asString?, ← (← samples.asArray?).mapM sampleOfJson?⟩
  | _ => none

/-- The snapshot in a JSON value. -/
def ofJson? (j : Json) : Option Snapshot := do
  match ← j.record? ["families"] with
  | [families] => (← families.asArray?).mapM familyOfJson?
  | _ => none

/-- The snapshot in a JSON text. -/
def parse? (text : String) : Option Snapshot := do
  ofJson? (← Json.parse? text)

end ClusterVitals.Snapshot
