import Intake.Bus
import Intake.Delivery.Trial
import Intake.Main
import Intake.Proofs.Run.Statuses
import Intake.Proofs.Session.Chain
import Intake.Rehearsal
import Intake.Proofs.Run.Ending
import Intake.Proofs.Run.Restraint
import Intake.Proofs.Cell
import Intake.Proofs.Run.Cells
import Intake.Proofs.Run.Failures
import Intake.Proofs.Session.Onward
import Intake.Proofs.Run.Ledger
import Intake.Proofs.Run.Regardless
import Intake.Proofs.Run.Stopping
import Intake.Proofs.Run.Batches
import Intake.Proofs.Run.Counters
import Intake.Proofs.Run.ErrorLog
import Intake.Proofs.Checkpoint.Decoding
import Intake.Proofs.Session.Opening
import Intake.Proofs.Session.Restored
import Intake.Proofs.ContactFile
import Intake.Proofs.Run.Lines
import Intake.Proofs.Run.Parallel
import Intake.Proofs.Checkpoint.History
import Intake.Proofs.Delivery.Request
import Intake.Proofs.Session.Completion
import Intake.Proofs.Session.Closing
import Intake.Proofs.Session.Edits
import Intake.Proofs.Session.Exclusive
import Intake.Proofs.Session.Rehearsal
import Intake.Proofs.Checkpoint.Backends
import Intake.Proofs.CommandLine.Exit
import Intake.Proofs.ContactFile.Sources
import Intake.Proofs.Mapping.Suggested
import Intake.Proofs.Run.Refusals
import Intake.Proofs.Run.Readout
import Intake.Proofs.Checkpoint.Keys
import Intake.Proofs.Checkpoint.Atomic
import Intake.Proofs.Checkpoint.Normal
import Intake.Proofs.Report
import Intake.Proofs.Bus
import Intake.Proofs.Delivery.Pace
import Intake.Proofs.Delivery.Verdict
import Intake.Proofs.Number.Duration
import Intake.Proofs.Settings
import Intake.Proofs.Bus.Subscriptions
import Intake.Proofs.Run.Waits
import Intake.Proofs.ContactFile.Rectangular
