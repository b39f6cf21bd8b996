import ClusterVitals.Config.Validity
import ClusterVitals.Controller.Simulation
import ClusterVitals.Metrics.Exposition

/-!
# The service

A service is a controller with the exposition of what it publishes. It starts only with valid
settings.
-/

namespace ClusterVitals

/-- Why nothing could be started. -/
inductive StartError where
  | invalid (violation : Violation)
  /-- A controller cannot have that many slots, or that long a queue. -/
  | capacity
  deriving DecidableEq, Repr

/-- Starts a controller with valid settings. -/
def Simulation.launch (c : Config) (clock : Instant) : Except StartError Simulation :=
  match c.violation? with
  | some v => .error (.invalid v)
  | none =>
    let controller := Controller.ofConfig c
    if controller.canStart then .ok (.start controller clock) else .error .capacity

/-- A running service. -/
structure Service where
  simulation : Simulation
  exposition : ExportConfig

namespace Service

/-- Starts a service. -/
def start (c : Config) (clock : Instant) : Except StartError Service := do
  let w ← Simulation.launch c clock
  return ⟨{ w with log := .serviceStarted c.certificate.subject :: w.log }, c.exposition⟩

/-- The text of the present gauges. -/
def expose (s : Service) : Except ServiceError String :=
  (Exposition.render s.simulation.state.vitals.registry.snapshot s.exposition.namePrefix).mapError
    fun f => .exposition f.message

/-- Ends the service and its controller. -/
def shutdown (s : Service) : Service :=
  let w := s.simulation.shutdown
  { s with simulation := { w with log := .serviceStopped :: w.log } }

end Service

end ClusterVitals
