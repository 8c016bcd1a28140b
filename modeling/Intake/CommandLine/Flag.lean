import Intake.Text.Basic

/-! The flags of the command line, and the texts that explain them. -/
namespace Intake.CommandLine

inductive Flag
  | help
  | workspace
  | config
  | list
  | map
  | resume
  | fresh
  | dryRun
  | errorsOut
  | logLevel
  deriving DecidableEq, Repr

namespace Flag

def all : List Flag :=
  [help, workspace, config, list, map, resume, fresh, dryRun, errorsOut, logLevel]

def spelling : Flag → Text
  | help => "--help"
  | workspace => "--workspace"
  | config => "--config"
  | list => "--list"
  | map => "--map"
  | resume => "--resume"
  | fresh => "--fresh"
  | dryRun => "--dry-run"
  | errorsOut => "--errors-out"
  | logLevel => "--log-level"

/-- The short spelling of help, the only flag that has one. -/
def shortHelp : Text := "-h"

def placeholder? : Flag → Option Text
  | workspace => some "WORKSPACE"
  | config => some "CONFIG"
  | list => some "LIST_ID"
  | map => some "FIELD=COLUMN"
  | errorsOut => some "ERRORS_OUT"
  | logLevel => some "LOG_LEVEL"
  | help | resume | fresh | dryRun => none

def takesValue (flag : Flag) : Bool := flag.placeholder?.isSome

def name : Flag → Text
  | help => shortHelp ++ "/" ++ spelling help
  | flag => flag.spelling

def explanation : Flag → Text
  | help => "show this help message and exit"
  | workspace => "Workspace the contacts belong to"
  | config =>
    "Path to the importer configuration file (YAML or JSON). Defaults to $CONTACT_IMPORTER_CONFIG"
  | list => "Subscribe imported contacts to this list (repeatable)"
  | map =>
    "Map a contact field to a CSV column, overriding the suggestion (repeatable). Use FIELD= to unmap"
  | resume => "Resume saved progress without asking"
  | fresh => "Discard saved progress without asking"
  | dryRun => "Validate and transform rows without calling the API"
  | errorsOut => "Write rejected rows to this CSV or XLSX file"
  | logLevel => "Logging level (e.g. DEBUG, INFO, WARNING)"

def synopsis (flag : Flag) : Text :=
  match flag.placeholder? with
  | some placeholder => flag.spelling ++ " " ++ placeholder
  | none => flag.spelling

end Flag
end Intake.CommandLine
