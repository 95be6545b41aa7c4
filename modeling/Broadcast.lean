import Broadcast.Binary64
import Broadcast.CommandLine
import Broadcast.CommandLine.Help
import Broadcast.CommandLine.Options
import Broadcast.Config
import Broadcast.Config.Loading
import Broadcast.Data
import Broadcast.Delivery
import Broadcast.Directory
import Broadcast.Directory.Change
import Broadcast.Dispatcher
import Broadcast.Duration
import Broadcast.Duration.Compact
import Broadcast.Duration.Reading
import Broadcast.EnvironmentFile
import Broadcast.FileTree
import Broadcast.Flight
import Broadcast.Flight.Desk
import Broadcast.Job.Bench
import Broadcast.Json.Reader
import Broadcast.Json.Writer
import Broadcast.Main
import Broadcast.Message
import Broadcast.Metric
import Broadcast.Metric.Totals
import Broadcast.Notice
import Broadcast.Pacing
import Broadcast.Recipient
import Broadcast.Rehearsal.Faults
import Broadcast.Rehearsal.Play
import Broadcast.Rehearsal.Script
import Broadcast.Rehearsal.Stage
import Broadcast.Rehearsal.Turn
import Broadcast.Request
import Broadcast.Run
import Broadcast.Run.Step
import Broadcast.Settings
import Broadcast.Summary
import Broadcast.Tally
import Broadcast.Targets
import Broadcast.Text.Alphanumeric
import Broadcast.Text.Blank
import Broadcast.Text.Numeral
import Broadcast.Text.Search
import Broadcast.Text.Terminal
import Broadcast.Timestamp
import Broadcast.Toml.Document
import Broadcast.Toml.Scalar
import Broadcast.Toml.Text
import Broadcast.Toml.Value
import Broadcast.Word
import Broadcast.Proofs.Accounting
import Broadcast.Proofs.Deliveries
import Broadcast.Proofs.Cancellation
import Broadcast.Proofs.Waits
import Broadcast.Proofs.Jobs
import Broadcast.Proofs.Desk
import Broadcast.Proofs.Flight
import Broadcast.Proofs.Lifecycle
import Broadcast.Proofs.Removals
import Broadcast.Proofs.GoneRecipients
import Broadcast.Proofs.ReportedCancels
import Broadcast.Proofs.Completion
import Broadcast.Proofs.Notices
import Broadcast.Proofs.Metrics
import Broadcast.Proofs.Breakdowns
import Broadcast.Proofs.RunMetrics
import Broadcast.Proofs.Permits
import Broadcast.Proofs.Dispatcher.Objections
import Broadcast.Proofs.Objections
import Broadcast.Proofs.Resolution
import Broadcast.Proofs.Run.Rounds
import Broadcast.Proofs.Rounds
import Broadcast.Proofs.Json.Scalars
import Broadcast.Proofs.Json.Reading
import Broadcast.Proofs.Json.Writing
import Broadcast.Proofs.Timestamp
import Broadcast.Proofs.Data.Records
import Broadcast.Proofs.Documents
import Broadcast.Proofs.Reasons
import Broadcast.Proofs.Termination
import Broadcast.Proofs.Edits
import Broadcast.Proofs.Requests
import Broadcast.Proofs.Duration.Components
import Broadcast.Proofs.Settings
import Broadcast.Proofs.Loading
import Broadcast.Proofs.PartialDocuments
import Broadcast.Proofs.Binary64
import Broadcast.Proofs.Duration.Amounts
import Broadcast.Proofs.Duration.Compact
import Broadcast.Proofs.Duration.Sums
import Broadcast.Proofs.Seeds
import Broadcast.Proofs.Generation
