import Intake.Text.Case

/-! Records of a log: how important each is, who reports it, and what it says. -/
namespace Intake.Log

inductive Level
  | debug
  | info
  | warning
  | error
  deriving DecidableEq, Repr

namespace Level

def name : Level → Text
  | debug => "DEBUG"
  | info => "INFO"
  | warning => "WARNING"
  | error => "ERROR"

def severity : Level → Nat
  | debug => 10
  | info => 20
  | warning => 30
  | error => 40

end Level

structure Record where
  level : Level
  source : Text
  message : Text
  deriving DecidableEq, Repr

/-- The names of thresholds, with the least severity that each lets pass. -/
def thresholds : List (Text × Nat) :=
  [("NOTSET", 0), ("DEBUG", 10), ("INFO", 20), ("WARN", 30), ("WARNING", 30), ("ERROR", 40),
    ("CRITICAL", 50), ("FATAL", 50)]

/-- The threshold of a name in any case; that of the level of information for any other name. -/
def threshold (name : Text) : Nat := (thresholds.lookup name.upperAscii).getD Level.info.severity

def Record.passes (threshold : Nat) (record : Record) : Bool := threshold ≤ record.level.severity

end Intake.Log
