import ClusterVitals.Binary64.Basic
import ClusterVitals.Binary64.Bits
import ClusterVitals.Binary64.Decimal
import ClusterVitals.Binary64.Text
import ClusterVitals.Certificate.Der
import ClusterVitals.Certificate.Evaluate
import ClusterVitals.Certificate.Pem
import ClusterVitals.Certificate.Time
import ClusterVitals.Cluster.Error
import ClusterVitals.Cluster.Identity
import ClusterVitals.Cluster.Notification
import ClusterVitals.Cluster.Object
import ClusterVitals.Cluster.Store
import ClusterVitals.Config.Backoff
import ClusterVitals.Config.Basic
import ClusterVitals.Config.Decode
import ClusterVitals.Config.Document
import ClusterVitals.Config.Printer
import ClusterVitals.Config.Validity
import ClusterVitals.Controller.Ledger
import ClusterVitals.Controller.Pending
import ClusterVitals.Controller.Simulation
import ClusterVitals.Controller.State
import ClusterVitals.Duration.Basic
import ClusterVitals.Duration.Timer
import ClusterVitals.Duration.Written
import ClusterVitals.Instant.Basic
import ClusterVitals.Instant.Calendar
import ClusterVitals.Json.Basic
import ClusterVitals.Json.Parser
import ClusterVitals.Json.Printer
import ClusterVitals.Json.Record
import ClusterVitals.Log.Directive
import ClusterVitals.Log.Event
import ClusterVitals.Log.Field
import ClusterVitals.Log.Filter
import ClusterVitals.Log.Level
import ClusterVitals.Log.Pattern
import ClusterVitals.Metrics.Exposition
import ClusterVitals.Metrics.Families
import ClusterVitals.Metrics.Labels
import ClusterVitals.Metrics.Registry
import ClusterVitals.Metrics.SnapshotReader
import ClusterVitals.Reconcile.Direct
import ClusterVitals.Reconcile.Dispatcher
import ClusterVitals.Reconcile.Plan
import ClusterVitals.Service
import ClusterVitals.Text.Alphanumeric
import ClusterVitals.Text.Base64
import ClusterVitals.Text.Blank
import ClusterVitals.Text.Digit
import ClusterVitals.Text.Quoted
import ClusterVitals.Text.Slice
import ClusterVitals.Text.Unprintable
import ClusterVitals.Text.Utf8
import ClusterVitals.Toml.Basic
import ClusterVitals.Toml.Document
import ClusterVitals.Toml.Printer
import ClusterVitals.Toml.Scalar
import ClusterVitals.Vitals.Effect
import ClusterVitals.Vitals.Tracker
import ClusterVitals.Proofs.Journal
import ClusterVitals.Proofs.Publication
import ClusterVitals.Proofs.Lane
import ClusterVitals.Proofs.LedgerLanes
import ClusterVitals.Proofs.Books
import ClusterVitals.Proofs.Bookings
import ClusterVitals.Proofs.Arrivals
import ClusterVitals.Proofs.Coalescing
import ClusterVitals.Proofs.Slots
import ClusterVitals.Proofs.PodPasses
import ClusterVitals.Proofs.Failures
import ClusterVitals.Proofs.Timers
import ClusterVitals.Proofs.Calm
import ClusterVitals.Proofs.StaleRetries
import ClusterVitals.Proofs.TrackerHistory
import ClusterVitals.Proofs.TimerMessages
import ClusterVitals.Proofs.TimerGenerations
import ClusterVitals.Proofs.Views
import ClusterVitals.Proofs.Answers
import ClusterVitals.Proofs.Convergence
import ClusterVitals.Proofs.LostPasses
import ClusterVitals.Proofs.DueTimes
import ClusterVitals.Proofs.Recheck
import ClusterVitals.Proofs.RetryDelay
import ClusterVitals.Proofs.RecheckBound
import ClusterVitals.Proofs.Commuting
import ClusterVitals.Proofs.Interleaving
import ClusterVitals.Proofs.Resumption
import ClusterVitals.Proofs.Conservation
import ClusterVitals.Proofs.Schema
import ClusterVitals.Proofs.ExpositionReader
import ClusterVitals.Proofs.Startup
import ClusterVitals.Proofs.FaithfulExposition
import ClusterVitals.Proofs.RegistryHistory
import ClusterVitals.Proofs.CertificatePasses
import ClusterVitals.Proofs.Streaks
import ClusterVitals.Proofs.TimerMoves
import ClusterVitals.Proofs.RetryChains
import ClusterVitals.Proofs.Shutdown
import ClusterVitals.Proofs.CanonicalSnapshot
import ClusterVitals.Proofs.RoundingError
import ClusterVitals.Proofs.DelayLimits
import ClusterVitals.Proofs.TextLines
import ClusterVitals.Proofs.FirstBlock
import ClusterVitals.Proofs.DerWriter
import ClusterVitals.Proofs.WrittenTimes
import ClusterVitals.Proofs.PemWriter
import ClusterVitals.Proofs.WrittenCertificates
import ClusterVitals.Proofs.Surroundings
import ClusterVitals.Proofs.VirtualClock
import ClusterVitals.Proofs.Deadlines
