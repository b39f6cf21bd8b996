import ClusterVitals.Binary64.Bits
import ClusterVitals.Cluster.Notification
import ClusterVitals.Instant.Calendar

/-!
# Log events

What is told to the log, and the line of each event: its level, its message and its fields.
-/

namespace ClusterVitals

/-- The two ways that a notification can go. -/
inductive Route where
  | certificate
  | podRestart
  deriving DecidableEq, Repr

/-- The name of a route. -/
def Route.text : Route → String
  | certificate => "Certificate"
  | podRestart => "PodRestart"

/-- The importance of an event. -/
inductive LogLevel where
  | error | warn | info | debug
  deriving DecidableEq, Repr

/-- The name of a level in a line. -/
def LogLevel.text : LogLevel → String
  | error => "ERROR"
  | warn => "WARN"
  | info => "INFO"
  | debug => "DEBUG"

/-- An event of the log. -/
inductive LogEvent where
  | dispatching (notification : Notification) (route : Route)
  | evicted (pod : ObjectKey) (count : Nat)
  | podUnfetched (pod : ObjectKey)
  | restartDetected (pod container : String) (counter : Nat) (reason : String)
  | secretGone (secret : ObjectKey) (removed : Nat)
  | dataKeyIgnored (secret : ObjectKey) (dataKey : String)
  | deadlineReached (secret : ObjectKey)
  | expirationRead (secret : ObjectKey) (dataKey : String) (expires : Instant) (daysLeft : Binary64)
  | expirationUnread (secret : ObjectKey) (dataKey : String)
  | failureInjected (key : ObjectKey)
  | retrying (key : ObjectKey) (delay : Duration)
  | failed (key : ObjectKey)
  | controllerStopped
  | serviceStarted (subject : ObjectKey)
  | serviceStopped
  deriving DecidableEq, Repr

namespace LogEvent

/-- The importance of an event. -/
def level : LogEvent → LogLevel
  | podUnfetched .. | failed .. => .error
  | deadlineReached .. | expirationUnread .. | retrying .. => .warn
  | restartDetected .. | secretGone .. | expirationRead .. | serviceStarted .. | serviceStopped =>
    .info
  | dispatching .. | evicted .. | dataKeyIgnored .. | failureInjected .. | controllerStopped =>
    .debug

/-- The message of an event. -/
def message : LogEvent → String
  | dispatching .. => "dispatching notification"
  | evicted .. => "pod deleted, evicted restart state"
  | podUnfetched .. => "unable to fetch pod"
  | restartDetected .. => "detected container restart"
  | secretGone .. => "secret gone, cleared certificate metrics"
  | dataKeyIgnored .. => "ignoring non-certificate key"
  | deadlineReached .. => "deadline reached, abandoning remaining certificate keys"
  | expirationRead .. => "certificate expiration info"
  | expirationUnread .. => "failed to check certificate expiration"
  | failureInjected .. => "injecting fetch failure"
  | retrying .. => "reconcile failed, retrying"
  | failed .. => "reconcile failed"
  | controllerStopped => "controller stopped"
  | serviceStarted .. => "podwatch started"
  | serviceStopped => "podwatch stopped"

/-- The fields of an event with the texts of their values. -/
def fields : LogEvent → List (String × String)
  | dispatching n route => [("key", n.key.text), ("route", route.text), ("kind", n.kind.text)]
  | evicted pod count => [("pod", pod.text), ("evicted", toString count)]
  | podUnfetched pod => [("pod", pod.text)]
  | restartDetected pod container counter reason =>
    [("pod", pod), ("container", container), ("restart_count", toString counter),
      ("reason", reason)]
  | secretGone secret removed => [("secret", secret.text), ("removed", toString removed)]
  | dataKeyIgnored secret dataKey => [("secret", secret.text), ("key", dataKey)]
  | deadlineReached secret => [("secret", secret.text)]
  | expirationRead secret dataKey expires daysLeft =>
    [("namespace", secret.ns), ("secret", secret.name), ("cert_type", dataKey),
      ("expiration_time", expires.logText), ("days_until_expiration", daysLeft.bitsText)]
  | expirationUnread secret dataKey =>
    [("namespace", secret.ns), ("secret", secret.name), ("cert_type", dataKey)]
  | failureInjected key => [("key", key.text)]
  | retrying key delay => [("key", key.text), ("retry_in", delay.text)]
  | failed key => [("key", key.text)]
  | serviceStarted subject => [("certificate", subject.text)]
  | controllerStopped | serviceStopped => []

/-- The line of an event. -/
def line (event : LogEvent) : String :=
  event.level.text ++ " " ++ event.message ++
    String.join (event.fields.map fun (name, value) => " " ++ name ++ "=" ++ value)

end LogEvent

end ClusterVitals
