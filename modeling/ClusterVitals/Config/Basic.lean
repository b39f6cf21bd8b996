import ClusterVitals.Cluster.Identity
import ClusterVitals.Config.Backoff

/-!
# Configuration

The settings of the service with their defaults. The certificate settings name the one secret whose
certificates are watched.
-/

namespace ClusterVitals

/-- Which secret is watched, and how often it is looked at without need. -/
structure CertificateConfig where
  ns : String
  secretName : String
  recheckInterval : Duration
  deriving DecidableEq, Repr

/-- How passes are run. -/
structure ReconcileConfig where
  timeout : Duration
  maxConcurrent : Nat
  queueCapacity : Nat
  backoff : Backoff
  deriving DecidableEq, Repr

/-- How much a line of the log shows. -/
inductive LogFormat where
  | full
  | compact
  deriving DecidableEq, Repr

/-- What is logged, and how. -/
structure LogConfig where
  filter : String
  format : LogFormat
  deriving DecidableEq, Repr

/-- What exposed names begin with. -/
structure ExportConfig where
  namePrefix : Option String
  deriving DecidableEq, Repr

/-- All settings. -/
structure Config where
  certificate : CertificateConfig
  reconcile : ReconcileConfig
  logging : LogConfig
  exposition : ExportConfig
  deriving DecidableEq, Repr

/-- The secret that is watched. -/
def CertificateConfig.subject (c : CertificateConfig) : ObjectKey := ⟨c.ns, c.secretName⟩

/-- The name of a format. -/
def LogFormat.text : LogFormat → String
  | full => "full"
  | compact => "compact"

/-- The format of a name. -/
def LogFormat.ofText? : String → Option LogFormat
  | "full" => some full
  | "compact" => some compact
  | _ => none

/-! ## Defaults -/

/-- Once an hour. -/
def defaultRecheckInterval : Duration := ⟨3600 * nanosPerSecond, by decide⟩

/-- A second at first, doubling up to five minutes. -/
def Backoff.standard : Backoff where
  initialDelay := ⟨nanosPerSecond, by decide⟩
  maxDelay := ⟨300 * nanosPerSecond, by decide⟩
  multiplier := 2

/-- The secret with the keys of the issuer of identities. -/
def CertificateConfig.standard : CertificateConfig where
  ns := "linkerd"
  secretName := "linkerd-identity-issuer"
  recheckInterval := defaultRecheckInterval

/-- Eight passes at once, of half a minute each. -/
def ReconcileConfig.standard : ReconcileConfig where
  timeout := ⟨30 * nanosPerSecond, by decide⟩
  maxConcurrent := 8
  queueCapacity := 1024
  backoff := .standard

/-- Everything from informational events on, in full lines. -/
def LogConfig.standard : LogConfig := ⟨"info", .full⟩

/-- Names as they are. -/
def ExportConfig.standard : ExportConfig := ⟨none⟩

/-- The settings where nothing is said. -/
def Config.standard : Config := ⟨.standard, .standard, .standard, .standard⟩

end ClusterVitals
