import Intake.ContactFile.Loader
import Intake.Run.Engine

/-! A session takes one file from its selection to the end of its import: its mapping, the saved
progress that is offered for it, its runs and what is settled after them. -/
namespace Intake

inductive SessionError
  | fileWhileActive
  | noFile
  | noProgress
  /-- saved progress was neither accepted nor discarded -/
  | undecided
  /-- the task of the session is not done -/
  | taskActive
  | notColumn (header fileName : Text)
  | mapping (error : MappingError)
  | start (error : StartError)
  | load (error : LoadError)
  /-- a failure of loading saved progress that the store does not settle -/
  | progress (failure : LoadFailure)

def SessionError.message : SessionError → Text
  | fileWhileActive => "Cannot select a new file while an import is running"
  | noFile => "No CSV data available"
  | noProgress => "There is no saved progress to resume"
  | undecided => "Choose whether to resume the previous upload or start fresh"
  | taskActive => "An import is already in progress"
  | notColumn header fileName =>
    "'" ++ header ++ "' is not a column of " ++ fileName
  | mapping error => error.message
  | start error => error.message
  | load error => error.message
  | progress failure => failure.message

/-- The task that a session started for its run. -/
inductive Task
  | none
  | underway
  | done (result : Except SessionError Outcome)

structure Session where
  engine : Engine
  file? : Option ContactFile
  mapping : Mapping
  lists : List Text
  /-- saved progress that was offered and is neither accepted nor discarded -/
  pending? : Option Checkpoint
  resumeRow : Int
  task : Task
  /-- whether the run under way is that of the task -/
  runsTask : Bool
  /-- whether the session closes once its task is done -/
  closing : Bool
  calendar : Calendar

namespace Session

def of (engine : Engine) (lists : List Text) (calendar : Calendar) : Session :=
  ⟨engine, none, [], lists, none, 0, .none, false, false, calendar⟩

def workspace (s : Session) : Text := s.engine.workspace

def headers (s : Session) : List Text := (s.file?.map (·.headers)).getD []

def isActive (s : Session) : Bool := s.engine.state.status.isActive

def isRunnable (s : Session) : Bool :=
  match s.file? with
  | none => false
  | some file => s.mapping.isRunnable file.headers

def note (s : Session) (event : Event) : Session := { s with engine := s.engine.note event }

def loadProgress (s : Session) (fileName : Text) :
    Except LoadFailure (Option Checkpoint) × Session :=
  let (offered, events, store) := s.engine.store.load s.workspace fileName
  (offered, { s with engine := { s.engine with store }.noteAll (events.map .stored) })

def clearProgress (s : Session) (fileName : Text) : Session :=
  let (event, store) := s.engine.store.clear s.workspace fileName
  { s with engine := { s.engine with store }.note (.stored event) }

/-- Goes back to the mapping by name, from the first row. -/
def startOver (s : Session) (file : ContactFile) : Session :=
  let mapping := Mapping.suggest file.headers
  { s with mapping, resumeRow := 0 }.note (.suggested mapping)

def useFile (s : Session) (file : ContactFile) :
    Except SessionError (Option Checkpoint) × Session :=
  if s.isActive then (.error .fileWhileActive, s)
  else
    match ({ s with file? := some file }.startOver file).loadProgress file.name with
    | (.error failure, s) => (.error (.progress failure), s)
    | (.ok offered, s) =>
      let s := { s with pending? := offered }.note (.opened file s.mapping.length)
      match offered with
      | none => (.ok none, s)
      | some checkpoint => (.ok (some checkpoint), s.note (.progressFound checkpoint))

def useLoaded (s : Session) (loaded : Except LoadError ContactFile) :
    Except SessionError (Option Checkpoint) × Session :=
  match loaded with
  | .error error => (.error (.load error), s)
  | .ok file => s.useFile file

def openText (s : Session) (name text : Text) : Except SessionError (Option Checkpoint) × Session :=
  s.useLoaded (ContactFile.parse name text (.scalar ',') ContactFile.defaultPreview)

def openFile (s : Session) (tree : FileTree) (path : Path) :
    Except SessionError (Option Checkpoint) × Session :=
  s.useLoaded (ContactFile.load tree path {})

/-- Goes on where the saved progress ends: with its lists, and with the part of its mapping that
fits the file. Answers the keys of the other part. -/
def resumeProgress (s : Session) : Except SessionError (List Text) × Session :=
  match s.file?, s.pending? with
  | none, _ => (.error .noFile, s)
  | some _, none => (.error .noProgress, s)
  | some file, some checkpoint =>
    let (kept, dropped) := checkpoint.mapping.restrict file.headers
    let s := { s with mapping := kept, lists := checkpoint.lists }
    let s :=
      if checkpoint.row < file.totalRows then { s with resumeRow := checkpoint.row }
      else { s with resumeRow := 0 }.note (.progressBeyondEnd checkpoint.row)
    let s := if dropped.isEmpty then s else s.note (.columnsMissing file.name dropped)
    let s :=
      if dropped.contains Attribute.emailKey ∨ (Entries.get? Attribute.emailKey kept).isNone then
        s.note .emailMissing
      else s
    (.ok dropped, { s with pending? := none })

def discardProgress (s : Session) : Except SessionError Unit × Session :=
  match s.file? with
  | none => (.error .noFile, s)
  | some file => (.ok (), { (s.clearProgress file.name).startOver file with pending? := none })

def assign (s : Session) (key : Text) (header : Option Text) :
    Except SessionError Mapping × Session :=
  match s.file? with
  | none => (.error .noFile, s)
  | some file =>
    let column := header.getD []
    if !column.isEmpty && !file.headers.contains column then
      (.error (.notColumn column file.name), s)
    else
      match s.mapping.assign key header with
      | .error error => (.error (.mapping error), s)
      | .ok mapping => (.ok mapping, { s with mapping })

def setLists (s : Session) (lists : List Text) : Session :=
  { s with lists := Entries.distinct lists }

/-! Runs. -/

def forget (s : Session) : Session :=
  { s with
    task := .none, file? := none, mapping := [], pending? := none, resumeRow := 0,
    closing := false }

/-- Settles a run that returned its state. Progress of a completed one is removed and the import is
announced; any other can be gone on with where it stopped. -/
def settleState (s : Session) (file : ContactFile) : Session :=
  let state := s.engine.state
  if state.status = .completed then
    { s.clearProgress file.name with resumeRow := 0 }.note
      (.published ⟨state.success, state.failure, s.workspace⟩)
  else { s with resumeRow := if state.row < file.totalRows then state.row else 0 }

/-- Marks the task as done. A session that waited for it to close does so, unless the task failed. -/
def finishTask (s : Session) (result : Except SessionError Outcome) : Session :=
  let s := { s with task := .done result, runsTask := false }
  if s.closing then
    match result with
    | .ok .finished => s.forget
    | _ => { s with closing := false }
  else s

/-- Settles the end of a run. -/
def settle (s : Session) (outcome : Outcome) : Session :=
  let s :=
    match outcome, s.engine.job? with
    | .finished, some job => s.settleState job.file
    | _, _ => s
  if s.runsTask then s.finishTask (.ok outcome) else s

/-- Takes over the engine after it went on, and settles its run if that ended. -/
def follow (s : Session) (engine : Engine) : Session :=
  let next := { s with engine }
  match s.engine.stage.isBusy, engine.stage with
  | true, .ended outcome => next.settle outcome
  | _, _ => next

def run (s : Session) : Except SessionError Unit × Session :=
  match s.file? with
  | none => (.error .noFile, s)
  | some file =>
    if s.pending?.isSome then (.error .undecided, s)
    else
      match s.engine.start ⟨file, s.mapping, s.lists, s.calendar⟩ s.resumeRow with
      | (.error error, engine) => (.error (.start error), { s with engine })
      | (.ok (), engine) => (.ok (), { s with engine })

/-- Starts a run as the task of the session, unless the latest such task is not done. -/
def startTask (s : Session) : Except SessionError Unit × Session :=
  match s.task with
  | .underway => (.error .taskActive, s)
  | _ =>
    match s.run with
    | (.error error, s) => (.ok (), s.finishTask (.error error))
    | (.ok (), s) => (.ok (), { s with task := .underway, runsTask := true })

/-- Starts a run as the task of the session. A run that does not start refuses here. -/
def begin (s : Session) : Except SessionError Unit × Session :=
  match s.startTask with
  | (.error error, s) => (.error error, s)
  | (.ok (), s) =>
    match s.task with
    | .done (.error error) => (.error error, s)
    | _ => (.ok (), s)

/-! Closing. -/

/-- How closing begins. -/
inductive Closing
  | closed
  /-- the operator does not stop the import -/
  | declined
  /-- the import was asked to stop -/
  | stopping
  deriving DecidableEq, Repr

/-- Begins to close: an import that is going on is asked to stop once that is confirmed, which it
is without a question. -/
def beginClose (s : Session) (confirmed : Option Bool) : Closing × Session :=
  if s.isActive then
    if confirmed = some false then (.declined, s)
    else (.stopping, { s with engine := s.engine.save.cancel.2 })
  else (.closed, s.forget)

/-- Closes a session whose import was asked to stop, once its task is done. Answers what the task
came to, if it is done. -/
def awaitTask (s : Session) : Option (Except SessionError Outcome) × Session :=
  match s.task with
  | .none => (some (.ok .finished), s.forget)
  | .underway => (none, { s with closing := true })
  | .done (.ok .finished) => (some (.ok .finished), s.forget)
  | .done result => (some result, s)

end Session
end Intake
