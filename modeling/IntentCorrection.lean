import IntentCorrection.Conformance.Defect
import IntentCorrection.Conformance.Report
import IntentCorrection.Main
import IntentCorrection.Simulation.Locks
import IntentCorrection.Proofs.Number.Text
import IntentCorrection.Proofs.Text.Escaped
import IntentCorrection.Proofs.Value.Induction
import IntentCorrection.Proofs.Value.SortedTexts
import IntentCorrection.Proofs.Value.Balanced
import IntentCorrection.Proofs.Value.Decoding
import IntentCorrection.Proofs.Value.Norm
import IntentCorrection.Proofs.Intent.CorrectionText
import IntentCorrection.Proofs.Intent.Steps
import IntentCorrection.Proofs.Intent.Chronicle
import IntentCorrection.Proofs.Lock.Registry
import IntentCorrection.Proofs.Lock.Stages
import IntentCorrection.Proofs.Lock.Departures
import IntentCorrection.Proofs.Store.Contents
import IntentCorrection.Proofs.Reevaluation.Exchange
import IntentCorrection.Proofs.Reevaluation.Job
import IntentCorrection.Proofs.Reevaluation.Conclusion
import IntentCorrection.Proofs.Reevaluation.Conduct
import IntentCorrection.Proofs.Concurrency.World
import IntentCorrection.Proofs.Concurrency.Served
import IntentCorrection.Proofs.Concurrency.Schedule
import IntentCorrection.Proofs.Concurrency.Serial
import IntentCorrection.Proofs.Concurrency.Once
import IntentCorrection.Proofs.Concurrency.Lifecycle
import IntentCorrection.Proofs.Store.Desk
import IntentCorrection.Proofs.Store.Owned
import IntentCorrection.Proofs.Concurrency.Isolation
import IntentCorrection.Proofs.Concurrency.Errand
import IntentCorrection.Proofs.Json.Nesting
import IntentCorrection.Proofs.Json.Numerals
import IntentCorrection.Proofs.Json.Reading
import IntentCorrection.Proofs.Entries
import IntentCorrection.Proofs.Json.Values
import IntentCorrection.Proofs.Text.Decimal
import IntentCorrection.Proofs.Time.Timestamp
import IntentCorrection.Proofs.Intent.Codec
import IntentCorrection.Proofs.Intent.Plain
import IntentCorrection.Proofs.Store.Snapshot
import IntentCorrection.Proofs.CommandLine.Paths
import IntentCorrection.Proofs.Reevaluation.Alone
import IntentCorrection.Proofs.CommandLine.Drafts
import IntentCorrection.Proofs.CommandLine.StoreFile
import IntentCorrection.Proofs.CommandLine.Commands
import IntentCorrection.Proofs.Intent.Depth
import IntentCorrection.Proofs.Intent.Replay
import IntentCorrection.Proofs.Store.Operations
import IntentCorrection.Proofs.Reevaluation.Sink
import IntentCorrection.Proofs.Reevaluation.Endings
import IntentCorrection.Proofs.Reevaluation.Auditing
import IntentCorrection.Proofs.Reevaluation.Paths
import IntentCorrection.Proofs.Reevaluation.Admission
import IntentCorrection.Proofs.CommandLine.Admission
import IntentCorrection.Proofs.Diff.Assignment
import IntentCorrection.Proofs.Json.Tree
import IntentCorrection.Proofs.Intent.Reloading
import IntentCorrection.Proofs.CommandLine.Atomic
import IntentCorrection.Proofs.Reevaluation.Patience
import IntentCorrection.Proofs.Concurrency.Deadline
import IntentCorrection.Proofs.Simulation.Play
import IntentCorrection.Proofs.Simulation.Deadline
import IntentCorrection.Proofs.Diff.Grammar
import IntentCorrection.Proofs.Diff.Offences
import IntentCorrection.Proofs.Diff.Positions
import IntentCorrection.Proofs.Diff.Collision
import IntentCorrection.Proofs.Store.Lending
import IntentCorrection.Proofs.Diff.Commutation
import IntentCorrection.Proofs.Intent.Rivals
import IntentCorrection.Proofs.Reevaluation.Deadlocks
import IntentCorrection.Proofs.Reevaluation.Accounting
import IntentCorrection.Proofs.Backoff
import IntentCorrection.Proofs.Store.Listing
import IntentCorrection.Proofs.Intent.History
