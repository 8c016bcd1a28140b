import Intake.Number.Binary64
import Intake.Text.Basic

/-! The state of a run as its operator sees it. -/
namespace Intake

inductive Status
  | idle
  | running
  | paused
  | cancelling
  | cancelled
  | completed
  | failed
  deriving DecidableEq, Repr

namespace Status

def all : List Status := [idle, running, paused, cancelling, cancelled, completed, failed]

def name : Status → Text
  | idle => "idle"
  | running => "running"
  | paused => "paused"
  | cancelling => "cancelling"
  | cancelled => "cancelled"
  | completed => "completed"
  | failed => "failed"

def isTerminal : Status → Bool
  | cancelled | completed | failed => true
  | _ => false

def isActive : Status → Bool
  | running | paused | cancelling => true
  | _ => false

end Status

structure ErrorEntry where
  /-- the line of the row in the file, the header being line one -/
  line : Int
  email : Text
  message : Text
  deriving DecidableEq, Repr

structure RunState where
  status : Status
  row : Int
  batch : Int
  totalRows : Int
  totalBatches : Int
  success : Int
  failure : Int
  /-- the first rejected rows, in their order -/
  errors : List ErrorEntry
  /-- how many rejected rows are kept -/
  capacity : Int
  /-- why the run failed -/
  fatal : Option Text
  deriving DecidableEq, Repr

namespace RunState

def defaultCapacity : Int := 100

def initial : RunState := ⟨.idle, 0, 0, 0, 0, 0, 0, [], defaultCapacity, none⟩

/-- The share of the rows behind the current one, in percent, computed in floating point and rounded
to the nearest integer, a tie to the even one. None if the share is out of range. -/
def share? (row totalRows : Int) : Option Int := do
  let share ← Binary64.ofRatio? row totalRows
  (share * Binary64.ofRat 100).round?

/-- The progress in percent, at most a hundred. Without rows it is all or nothing. -/
def percent? (s : RunState) : Option Int :=
  if s.totalRows ≤ 0 then some (if s.status = .completed then 100 else 0)
  else (share? s.row s.totalRows).map (min · 100)

def percent (s : RunState) : Int := s.percent?.getD 0

def isLogFull (s : RunState) : Bool := s.capacity ≤ s.errors.length

def summary (s : RunState) : Text :=
  "batch " ++ Text.ofInt s.batch ++ "/" ++ Text.ofInt s.totalBatches ++
    ", row " ++ Text.ofInt s.row ++ "/" ++ Text.ofInt s.totalRows ++
    ", " ++ Text.ofInt s.success ++ " imported, " ++ Text.ofInt s.failure ++ " failed"

def reject (s : RunState) (entry : ErrorEntry) : RunState :=
  { s with
    failure := s.failure + 1
    errors := if s.isLogFull then s.errors else s.errors ++ [entry] }

end RunState
end Intake
