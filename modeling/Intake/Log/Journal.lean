import Intake.Json.Spelling
import Intake.Log.Basic
import Intake.Run.Event

/-! What the events of an import say in its log. A notice says how far the import has come, if its
row is another one than that of the notice before. -/
namespace Intake.Log

inductive Source
  | checkpoints
  | commandLine
  | config
  | fields
  | mapping
  | processor
  | root
  | session
  deriving DecidableEq, Repr

def Source.name : Source → Text
  | checkpoints => "contact_importer.checkpoints"
  | commandLine => "contact_importer.cli"
  | config => "contact_importer.config"
  | fields => "contact_importer.fields"
  | mapping => "contact_importer.mapping"
  | processor => "contact_importer.processor"
  | root => "root"
  | session => "contact_importer.session"

def debug (source : Source) (message : Text) : Record := ⟨.debug, source.name, message⟩
def info (source : Source) (message : Text) : Record := ⟨.info, source.name, message⟩
def warning (source : Source) (message : Text) : Record := ⟨.warning, source.name, message⟩
def error (source : Source) (message : Text) : Record := ⟨.error, source.name, message⟩

def listed (keys : List Text) : Text := Text.join ", " (keys.mergeSort Text.le)

def atRow (s : RunState) : Text := " at row " ++ Text.ofInt s.row

def ofStore : StoreEvent → Option Record
  | .saved fileName row totalRows _ =>
    some (debug .checkpoints
      ("Saved progress for " ++ fileName ++ ": row " ++ row.spell ++ "/" ++ totalRows.spell))
  | .saveFailed workspace fileName _ =>
    some (error .checkpoints
      ("Error saving progress for " ++ fileName ++ " in workspace " ++ workspace))
  | .loadFailed fileName _ =>
    some (error .checkpoints ("Error checking for saved progress for " ++ fileName))
  | .refused fileName why =>
    some (match why with
      | .unreadable source reason =>
        warning .checkpoints
          ("Discarding malformed saved progress for " ++ fileName ++ ": " ++ reason.message source)
      | .undecodable reason =>
        warning .checkpoints
          ("Discarding malformed saved progress for " ++ fileName ++ ": " ++ reason.message)
      | .otherFile other =>
        warning .checkpoints
          ("Discarding saved progress recorded for a different file (" ++ other ++ ")")
      | .outside row totalRows =>
        info .checkpoints
          ("Discarding saved progress for " ++ fileName ++ ": row " ++ Text.ofInt row
            ++ " outside [0, " ++ Text.ofInt totalRows ++ ")")
      | .stale => info .checkpoints ("Discarding stale saved progress for " ++ fileName))
  | .cleared _ => none
  | .clearFailed fileName _ =>
    some (error .checkpoints ("Error clearing saved progress for " ++ fileName))

def ofStatus (fileName : Text) (s : RunState) : Option Record :=
  match s.status with
  | .idle => none
  | .running => some (info .processor ("Import resumed" ++ atRow s))
  | .paused => some (info .processor ("Import paused" ++ atRow s))
  | .cancelling => some (info .processor ("Cancellation requested" ++ atRow s))
  | .cancelled => some (info .processor ("Import of " ++ fileName ++ " cancelled" ++ atRow s))
  | .completed =>
    some (info .processor
      ("Import of " ++ fileName ++ " completed: " ++ Text.ofInt s.success ++ " imported, "
        ++ Text.ofInt s.failure ++ " failed"))
  | .failed => some (error .processor ("Import of " ++ fileName ++ " failed" ++ atRow s))

def ofNotice (s : RunState) : Record :=
  info .commandLine ("Progress " ++ Text.ofInt s.percent ++ "%: " ++ s.summary)

def ofEvent : Event → Option Record
  | .mappingReduced keys =>
    some (warning .mapping
      ("Ignoring mappings for " ++ listed keys ++ ": columns not present in file"))
  | .resumeRowIgnored row =>
    some (warning .processor
      ("Resume row " ++ Text.ofInt row ++ " is outside the file, starting from the first row"))
  | .started fileName s =>
    some (info .processor
      ("Starting import of " ++ fileName ++ ": " ++ Text.ofInt s.totalRows ++ " rows in "
        ++ Text.ofInt s.totalBatches ++ " batches from row " ++ Text.ofInt s.row))
  | .batchBegun s stop =>
    some (debug .processor
      ("Processing batch " ++ Text.ofInt s.batch ++ "/" ++ Text.ofInt s.totalBatches ++ " (rows "
        ++ Text.ofInt s.row ++ "-" ++ Text.ofNat stop ++ ")"))
  | .discarded discard =>
    some (debug .fields ("Discarding " ++ discard.kind.name ++ " value: " ++ discard.why.message))
  | .rejected entry =>
    some (warning .processor
      ("Error upserting contact " ++ entry.email ++ " (line " ++ Text.ofInt entry.line ++ "): "
        ++ entry.message))
  | .entered fileName s => ofStatus fileName s
  | .cutShort fileName s =>
    some (info .processor ("Import of " ++ fileName ++ " interrupted" ++ atRow s))
  | .ignored action status =>
    some (debug .processor ("Ignoring " ++ action.name ++ " while " ++ status.name))
  | .stored event => ofStore event
  | .suggested mapping =>
    some (debug .mapping
      ("Suggested mapping " ++
        (Json.object (mapping.map fun entry => (entry.1, .text entry.2))).spell))
  | .opened file mapped =>
    some (info .session
      ("Loaded " ++ file.name ++ ": " ++ Text.ofNat file.totalRows ++ " rows, "
        ++ Text.ofNat mapped ++ " of " ++ Text.ofNat file.headers.length
        ++ " columns auto-mapped"))
  | .progressFound c =>
    some (info .session
      ("Found saved progress for " ++ c.fileName ++ atRowOf c.row c.totalRows))
  | .progressBeyondEnd row =>
    some (warning .session
      ("Saved row " ++ Text.ofInt row ++ " is beyond the end of the file"))
  | .columnsMissing _ keys =>
    some (warning .session
      ("Saved mappings for " ++ listed keys ++ " refer to missing columns"))
  | .emailMissing =>
    some (warning .session
      "Email mapping from previous session is invalid for this CSV, map it before starting")
  | .published a =>
    some (info .commandLine
      ("Imported " ++ Text.ofInt a.success ++ " contacts into " ++ a.workspace ++ " ("
        ++ Text.ofInt a.failure ++ " failed)"))
  | .submitted .. | .replied .. | .handed _ | .notified _ | .ended _ => none
where
  atRowOf (row totalRows : Int) : Text :=
    " at row " ++ Text.ofInt row ++ "/" ++ Text.ofInt totalRows

/-- The records of events, and the row of the latest notice, given that of the notice before. -/
def ofEvents (last : Int) : List Event → List Record × Int
  | [] => ([], last)
  | .notified s :: rest =>
    let (records, final) := ofEvents s.row rest
    (if s.row = last then records else ofNotice s :: records, final)
  | event :: rest =>
    let (records, final) := ofEvents last rest
    ((ofEvent event).toList ++ records, final)

/-- A row that no notice has. -/
def noRow : Int := -1

end Intake.Log
