import ClusterVitals.Config.Basic
import ClusterVitals.Text.Quoted

/-!
# Valid settings

What settings must satisfy, checked in a fixed order, so that one set of settings always fails with
the same violation.
-/

namespace ClusterVitals

/-- What is wrong with settings. -/
inductive Violation where
  | emptyNamespace
  | emptySecretName
  | zeroRecheckInterval
  | zeroTimeout
  | zeroMaxConcurrent
  | zeroQueueCapacity
  | badMultiplier
  | maxDelayTooShort
  | badNamePrefix (namePrefix : String)
  deriving DecidableEq, Repr

/-- The text of a violation. -/
def Violation.message : Violation → String
  | emptyNamespace => "certificate.namespace cannot be empty"
  | emptySecretName => "certificate.secret_name cannot be empty"
  | zeroRecheckInterval => "certificate.recheck_interval must be greater than 0"
  | zeroTimeout => "reconcile.timeout must be greater than 0"
  | zeroMaxConcurrent => "reconcile.max_concurrent must be greater than 0"
  | zeroQueueCapacity => "reconcile.queue_capacity must be greater than 0"
  | badMultiplier => "reconcile.backoff.multiplier must be a finite value >= 1.0"
  | maxDelayTooShort => "reconcile.backoff.max_delay must not be below initial_delay"
  | badNamePrefix p => "export.prefix " ++ Text.quoted p ++ " is not a valid metric name prefix"

/-- A character that a metric name may begin with. -/
def canBeginName (c : Char) : Bool := c.isAlpha || c == '_'

/-- A character that a metric name may go on with. -/
def canContinueName (c : Char) : Bool := c.isAlpha || c.isDigit || c == '_'

/-- A metric name: ASCII letters, digits and underscores, not beginning with a digit. -/
def isMetricName (name : String) : Bool :=
  match name.toList with
  | [] => false
  | c :: rest => canBeginName c && rest.all canContinueName

namespace CertificateConfig

/-- The first violation of the certificate settings. -/
def violation? (c : CertificateConfig) : Option Violation :=
  if c.ns.isEmpty then some .emptyNamespace
  else if c.secretName.isEmpty then some .emptySecretName
  else if c.recheckInterval.nanos = 0 then some .zeroRecheckInterval
  else none

end CertificateConfig

namespace Backoff

/-- The first violation of the backoff settings. -/
def violation? (b : Backoff) : Option Violation :=
  if b.multiplier.lt 1 ∨ ¬b.multiplier.isFinite then some .badMultiplier
  else if b.maxDelay < b.initialDelay then some .maxDelayTooShort
  else none

end Backoff

namespace ReconcileConfig

/-- The first violation of the pass settings. -/
def violation? (c : ReconcileConfig) : Option Violation :=
  if c.timeout.nanos = 0 then some .zeroTimeout
  else if c.maxConcurrent = 0 then some .zeroMaxConcurrent
  else if c.queueCapacity = 0 then some .zeroQueueCapacity
  else c.backoff.violation?

end ReconcileConfig

namespace ExportConfig

/-- The violation of the export settings. -/
def violation? (c : ExportConfig) : Option Violation :=
  match c.namePrefix with
  | some p => if isMetricName p then none else some (.badNamePrefix p)
  | none => none

end ExportConfig

namespace Config

/-- The first violation of the settings. -/
def violation? (c : Config) : Option Violation :=
  c.certificate.violation? <|> c.reconcile.violation? <|> c.exposition.violation?

/-- The settings have no violation. -/
def IsValid (c : Config) : Prop := c.violation? = none

instance (c : Config) : Decidable c.IsValid := inferInstanceAs (Decidable (_ = _))

/-- The settings, or their first violation. -/
def validated (c : Config) : Except Violation Config :=
  match c.violation? with
  | some v => .error v
  | none => .ok c

end Config

end ClusterVitals
