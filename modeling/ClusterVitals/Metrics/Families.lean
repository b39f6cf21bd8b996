/-!
# Metric families

The families that are published, with the names of their labels. Names of families and labels are
what dashboards and alerts refer to.
-/

namespace ClusterVitals

/-- A family as it is declared. -/
structure FamilyDeclaration where
  name : String
  help : String
  labels : List String
  deriving DecidableEq, Repr

namespace Metrics

/-- The last termination of each container. -/
def terminationFamily : FamilyDeclaration where
  name := "container_last_termination_info"
  help := "Exposes information about the last termination of a container. " ++
    "The value is the unix timestamp of the termination."
  labels := ["namespace", "pod", "container", "reason", "exit_code"]

/-- The instant at which each certificate expires. -/
def expirationFamily : FamilyDeclaration where
  name := "certificate_expiration_timestamp_seconds"
  help := "Unix timestamp in seconds indicating when the certificate will expire"
  labels := ["namespace", "secret_name", "cert_type"]

/-- The days left until each certificate expires. -/
def daysLeftFamily : FamilyDeclaration where
  name := "certificate_days_until_expiration"
  help := "Number of days until the certificate expires"
  labels := ["namespace", "secret_name", "cert_type"]

/-- All families. -/
def families : List FamilyDeclaration :=
  [terminationFamily, expirationFamily, daysLeftFamily]

end Metrics

end ClusterVitals
