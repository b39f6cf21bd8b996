import ClusterVitals.Cluster.Identity
import ClusterVitals.Duration.Basic

/-!
# Errors

`Error` lists what can go wrong with objects, passes and settings, and `Error.isRetryable` which of
it is worth another try. `ServiceError` adds what can go wrong around the passes. The texts are those
that are shown.
-/

namespace ClusterVitals

/-- What went wrong. -/
inductive Error where
  /-- An object could not be fetched. -/
  | fetch (key : ObjectKey) (reason : String)
  /-- An object does not exist. -/
  | notFound (key : ObjectKey)
  /-- Key material has no readable PEM block. -/
  | malformedInput (text : String)
  /-- A PEM block does not hold a certificate. -/
  | certificateParse (text : String)
  /-- A pass did not end in time. -/
  | timeout (key : ObjectKey) (after : Duration)
  /-- Settings cannot be used. -/
  | config (text : String)
  /-- The controller takes no more work. -/
  | shutdown
  deriving DecidableEq, Repr

namespace Error

/-- The text of an error. -/
def message : Error → String
  | fetch key reason => "failed to fetch " ++ key.text ++ ": " ++ reason
  | notFound key => "object not found: " ++ key.text
  | malformedInput text => "malformed key material: " ++ text
  | certificateParse text => "failed to parse certificate: " ++ text
  | timeout key after => "reconcile of " ++ key.text ++ " timed out after " ++ after.text
  | config text => "configuration error: " ++ text
  | shutdown => "controller shut down"

/-- The object does not exist. -/
def isNotFound : Error → Bool
  | notFound _ => true
  | _ => false

/-- A later pass may succeed. -/
def isRetryable : Error → Bool
  | fetch .. | timeout .. => true
  | _ => false

end Error

/-- What went wrong around the passes. -/
inductive ServiceError where
  /-- The metrics cannot be exposed. -/
  | exposition (text : String)
  /-- The log cannot be set up. -/
  | logging (text : String)
  /-- A controller cannot be set up. -/
  | setup (text : String)
  /-- A condition did not come to hold in time. -/
  | unmet (after : Duration)
  /-- A pass went wrong. -/
  | pass (cause : Error)
  deriving DecidableEq, Repr

/-- The text of an error. -/
def ServiceError.message : ServiceError → String
  | exposition text => "export error: " ++ text
  | logging text => "logging error: " ++ text
  | setup text => "harness error: " ++ text
  | unmet after => "timeout after " ++ after.text
  | pass cause => "reconcile error: " ++ cause.message

end ClusterVitals
