import Intake.Checkpoint.Store
import Intake.Delivery.Basic
import Intake.Run.State

/-! What an import reports, in the order in which it happens. -/
namespace Intake

/-- What an operator can ask of a run. -/
inductive Action
  | pause
  | resume
  | cancel
  deriving DecidableEq, Repr

def Action.name : Action → Text
  | pause => "pause"
  | resume => "resume"
  | cancel => "cancel"

/-- How a run ends for whoever started it. -/
inductive Outcome
  /-- with a terminal status -/
  | finished
  /-- by a failure of its last notice -/
  | failed (failure : Failure)
  /-- by an interruption -/
  | interrupted
  deriving DecidableEq, Repr

structure Announcement where
  success : Int
  failure : Int
  workspace : Text
  deriving DecidableEq, Repr

inductive Event
  /-- entries of the mapping that a run leaves out -/
  | mappingReduced (keys : List Text)
  /-- a row to resume from that is not one of the file -/
  | resumeRowIgnored (row : Int)
  | started (fileName : Text) (state : RunState)
  | batchBegun (state : RunState) (stop : Nat)
  | discarded (discard : Discard)
  /-- a delivery began -/
  | submitted (row : Nat) (delivery : Delivery)
  /-- the delivery of a row ended -/
  | replied (row : Nat) (reply : Reply)
  | rejected (entry : ErrorEntry)
  /-- a run of a file entered a status other than that of its start -/
  | entered (fileName : Text) (state : RunState)
  /-- a run of a file was interrupted -/
  | cutShort (fileName : Text) (state : RunState)
  | notified (state : RunState)
  | ignored (action : Action) (status : Status)
  /-- the progress of a run was handed to the store -/
  | handed (checkpoint : Checkpoint)
  | stored (event : StoreEvent)
  | ended (outcome : Outcome)
  | suggested (mapping : Mapping)
  | opened (file : ContactFile) (mapped : Nat)
  | progressFound (checkpoint : Checkpoint)
  /-- saved progress beyond the end of the file -/
  | progressBeyondEnd (row : Int)
  /-- saved entries of the mapping whose columns are missing from a file -/
  | columnsMissing (fileName : Text) (keys : List Text)
  | emailMissing
  | published (announcement : Announcement)

end Intake
