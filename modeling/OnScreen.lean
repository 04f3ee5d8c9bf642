import OnScreen.CommandLine
import OnScreen.Config
import OnScreen.Config.Load
import OnScreen.Decimal.Binary64
import OnScreen.Decimal.Shortest
import OnScreen.Delivery
import OnScreen.Expansion
import OnScreen.Files
import OnScreen.Gate
import OnScreen.Item.Candidate
import OnScreen.Item.Key
import OnScreen.Item.Location
import OnScreen.Item.Record
import OnScreen.Json.Error
import OnScreen.Json.Format
import OnScreen.Json.Number
import OnScreen.Json.Record
import OnScreen.Json.TaggedUnion
import OnScreen.Json.Text
import OnScreen.Json.Value
import OnScreen.KeyMap
import OnScreen.Ledger
import OnScreen.Log
import OnScreen.Loop
import OnScreen.Main
import OnScreen.Owner
import OnScreen.Program
import OnScreen.Proofs.Balance
import OnScreen.Proofs.Bookkeeping
import OnScreen.Proofs.Consistency
import OnScreen.Proofs.Diff
import OnScreen.Proofs.Expansion
import OnScreen.Proofs.ExpansionReports
import OnScreen.Proofs.GateAgreement
import OnScreen.Proofs.Moves
import OnScreen.Proofs.Run
import OnScreen.Proofs.Silence
import OnScreen.Replay
import OnScreen.Report
import OnScreen.Schedule
import OnScreen.Script
import OnScreen.Sink
import OnScreen.Sink.Lines
import OnScreen.Sink.Logged
import OnScreen.Sink.Recorder
import OnScreen.SourceScan
import OnScreen.Text.Blank
import OnScreen.Text.Digit
import OnScreen.Text.Printable
import OnScreen.Text.Quoted
import OnScreen.Toml.Document
import OnScreen.Toml.Scalar
import OnScreen.Toml.Table
import OnScreen.Toml.Text
import OnScreen.Tracker
import OnScreen.Visibility
import OnScreen.Wire
import OnScreen.Word
import OnScreen.Proofs.Deadline
import OnScreen.Proofs.TickRate
import OnScreen.Proofs.Transitions
import OnScreen.Proofs.DeliveryOrder
import OnScreen.Proofs.CommandOrder
import OnScreen.Proofs.Confluence
import OnScreen.Proofs.AfterTheEnd
import OnScreen.Proofs.TrackerRun
import OnScreen.Proofs.LastCommand
import OnScreen.Proofs.EndToEnd
import OnScreen.Proofs.SinkFailures
import OnScreen.Proofs.Json.Text
import OnScreen.Proofs.Json.Number
import OnScreen.Proofs.Json.Value
import OnScreen.Proofs.Json.Format
import OnScreen.Proofs.Json.Record
import OnScreen.Proofs.Json.TaggedUnion
import OnScreen.Proofs.Json.OneLine
import OnScreen.Proofs.Wire
import OnScreen.Proofs.Lines
import OnScreen.Proofs.PanelReports
import OnScreen.Proofs.Histories
import OnScreen.Proofs.Redundancy
import OnScreen.Proofs.TwoLists
import OnScreen.Proofs.Script
import OnScreen.Proofs.ScriptText
import OnScreen.Proofs.ClosedBooks
import OnScreen.Proofs.StayingClients
import OnScreen.Proofs.ReplayCourse
import OnScreen.Proofs.Settling
import OnScreen.Proofs.ReplayTiming
import OnScreen.Proofs.Replay
import OnScreen.Proofs.Independence
import OnScreen.Proofs.Attribution
import OnScreen.Proofs.SignalAccount
import OnScreen.Proofs.DeliveryCounters
import OnScreen.Proofs.Overrides
import OnScreen.Proofs.Spelling
import OnScreen.Proofs.Layers
import OnScreen.Proofs.ProductionLines
import OnScreen.Proofs.Listing
import OnScreen.Proofs.Knowledge
import OnScreen.Proofs.Bursts
import OnScreen.Proofs.Paths
import OnScreen.Proofs.SourceTree
