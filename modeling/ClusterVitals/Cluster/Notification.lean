import ClusterVitals.Cluster.Identity
import ClusterVitals.Json.Parser
import ClusterVitals.Json.Printer
import ClusterVitals.Json.Record

/-!
# Notifications

A notification says that an object changed or was deleted. It has a form in JSON.
-/

namespace ClusterVitals

/-- What happened to an object. -/
inductive ChangeKind where
  /-- The object was created or changed, or it is due for another look. -/
  | changed
  | deleted
  deriving DecidableEq, Repr

/-- The news of a change of an object. -/
structure Notification where
  key : ObjectKey
  kind : ChangeKind
  deriving DecidableEq, Repr

/-- The word for a kind of change. -/
def ChangeKind.text : ChangeKind → String
  | changed => "Changed"
  | deleted => "Deleted"

/-- The kind of change that a word stands for. -/
def ChangeKind.ofText? : String → Option ChangeKind
  | "Changed" => some changed
  | "Deleted" => some deleted
  | _ => none

@[simp] theorem ChangeKind.ofText?_text (kind : ChangeKind) : ofText? kind.text = some kind := by
  cases kind <;> rfl

namespace Notification

/-- The news that an object changed. -/
def ofChange (key : ObjectKey) : Notification := ⟨key, .changed⟩

/-- The key of an object: its namespace and its name. -/
def keyOfJson? (j : Json) : Option ObjectKey := do
  match ← j.record? ["namespace", "name"] with
  | [ns, name] => return ⟨← ns.asString?, ← name.asString?⟩
  | _ => none

/-- The kind of change: its word, or an object with the word as its only name and no value. -/
def kindOfJson? : Json → Option ChangeKind
  | .string text => text.bind ChangeKind.ofText?
  | .object [(name, .null)] => name.bind ChangeKind.ofText?
  | _ => none

/-- The notification in a JSON value. -/
def ofJson? (j : Json) : Option Notification := do
  match ← j.record? ["key", "kind"] with
  | [key, kind] => return ⟨← keyOfJson? key, ← kindOfJson? kind⟩
  | _ => none

/-- The notification as a JSON value. -/
def toJson (n : Notification) : Json :=
  .ofMembers [
    ("key", .ofMembers [("namespace", .ofString n.key.ns), ("name", .ofString n.key.name)]),
    ("kind", .ofString n.kind.text)]

/-- The notification in a JSON text. -/
def parse? (text : String) : Option Notification := do
  ofJson? (← Json.parse? text)

/-- The notification as a JSON text. -/
def render (n : Notification) : String := n.toJson.render

end Notification

end ClusterVitals
