import Intake.CommandLine.Arguments
import Intake.Delivery.Plan
import Intake.Log.Journal
import Intake.Report
import Intake.Session
import Intake.Settings.Loader

/-! An import from the command line: it is set up from settings, prepared by the arguments and the
saved progress, driven to its end, and concluded with an exit code. -/
namespace Intake.CommandLine

inductive ExitCode
  | completed
  /-- a run was started and is cancelled or failed -/
  | notCompleted
  | notStarted
  deriving DecidableEq, Repr

def ExitCode.number : ExitCode → Nat
  | completed => 0
  | notCompleted => 1
  | notStarted => 2

/-- Why the program ends without an exit code of its own. -/
inductive Crash
  | config (failure : ConfigFailure)
  | plan (error : PlanError)
  | store (error : StoreError)
  | batchSize
  | session (error : SessionError)
  | report (error : ReportError)
  /-- the last notice of the run failed -/
  | failed (failure : Failure)
  /-- whoever delivered could not be dismissed -/
  | dismissal (failure : Failure)
  | interrupted

def Crash.message : Crash → Text
  | config (.settings (.invalid error)) | plan (.invalid error) => error.message
  | config _ => "the configuration cannot be read"
  | plan (.missingModule name) => "there is no module " ++ name
  | plan _ => "the configuration of the delivery does not fit"
  | store (.window _) => "the time for which progress stays fresh is too long"
  | store _ => "there is no home directory for the progress"
  | batchSize => "the size of a batch must be positive"
  | session error => error.message
  | report error => error.message
  | failed failure | dismissal failure => failure.text
  | interrupted => "the import was interrupted"

inductive Halt
  /-- it is not started, for the reason that a record gives -/
  | refused (record : Log.Record)
  | crash (crash : Crash)

namespace Halt

def refusedFor (message : Text) : Halt := refused (Log.error .commandLine message)

def ofConfigError (error : ConfigError) : Halt :=
  refused (Log.error .root ("Configuration error: " ++ error.message))

def ofConfig : ConfigFailure → Halt
  | .settings (.invalid error) => ofConfigError error
  | failure => crash (.config failure)

def ofPlan : PlanError → Halt
  | .invalid error => ofConfigError error
  | error => crash (.plan error)

/-- Only a file that is missing, unsupported or empty is refused among those that cannot be loaded;
a run that goes on already and progress that cannot be loaded are crashes. -/
def ofSession (error : SessionError) : Halt :=
  match error with
  | .load (.file _ .missing) | .load (.unsupported _) | .load .empty => refusedFor error.message
  | .load _ | .progress _ | .start .active => crash (.session error)
  | error => refusedFor error.message

end Halt

structure Place where
  environment : Entries Text Text
  tree : FileTree
  home : Path
  /-- the directory in which the tree starts -/
  directory : Path
  /-- the time, in milliseconds since the start of 1970 -/
  now : Int
  calendar : Calendar

/-- The home of an account, as far as it is known: the caller's own, who needs no name. -/
def Place.homeOf (place : Place) (account : Text) : Option Path :=
  if account.isEmpty then some place.home else none

structure Import where
  session : Session
  log : List Log.Record
  /-- the row of the latest notice -/
  lastRow : Int

namespace Import

def of (session : Session) : Import := ⟨session, [], Log.noRow⟩

def say (i : Import) (record : Log.Record) : Import := { i with log := i.log ++ [record] }

def listen (i : Import) : Import :=
  let (records, lastRow) := Log.ofEvents i.lastRow i.session.engine.journal.reverse
  let engine := { i.session.engine with journal := [] }
  ⟨{ i.session with engine }, i.log ++ records, lastRow⟩

def tree (i : Import) : FileTree := i.session.engine.store.storage.medium.tree

def withTree (i : Import) (tree : FileTree) : Import :=
  let store := i.session.engine.store
  let storage := { store.storage with medium := store.storage.medium.withTree tree }
  { i with session := { i.session with engine := { i.session.engine with
    store := { store with storage } } } }

end Import

/-! Setting up. -/

def settingsLog (place : Place) (arguments : Arguments) : List Log.Record :=
  match Settings.source? arguments.config place.environment with
  | some _ => []
  | none => [Log.debug .config "No configuration file given, using defaults"]

def setUp {ω : Type} (registry : Registry ω) (place : Place) (arguments : Arguments) :
    Except Halt (Plan ω × Import) := do
  let settings ←
    (Settings.load place.tree arguments.config place.environment).mapError Halt.ofConfig
  let plan ← (Plan.ofSettings registry settings arguments.dryRun).mapError Halt.ofPlan
  let store ← (settings.checkpointStore place.homeOf place.tree place.now).mapError
    fun error => .crash (.store error)
  match Engine.make? arguments.workspace settings.batchSize store with
  | none => throw (.crash .batchSize)
  | some engine => return (plan, .of (.of engine arguments.lists place.calendar))

/-! Preparing. -/

/-- A step of an import that may halt it. What was said and done before is kept. -/
abbrev Attempt := ExceptT Halt (StateM Import)

def attempt {α : Type} (f : Session → Except SessionError α × Session) : Attempt α := do
  let i ← get
  let (answer, session) := f i.session
  set ({ i with session }.listen)
  match answer with
  | .ok a => return a
  | .error error => throw (.ofSession error)

/-- Opens the file of the arguments. Answers the progress that is offered for it. -/
def openInput (arguments : Arguments) : Attempt (Option Checkpoint) := do
  let tree := (← get).tree
  attempt (·.openFile tree (Path.ofText arguments.input))

/-- What the operator is asked about saved progress, unless the arguments decide. -/
def question? (arguments : Arguments) (saved : Option Checkpoint) : Option Text :=
  match saved with
  | some c =>
    if arguments.resume || arguments.fresh then none
    else
      some ("A previous upload for '" ++ c.fileName ++ "' stopped at row " ++ Text.ofInt c.row
        ++ " of " ++ Text.ofInt c.totalRows ++ ". Resume? [Y/n] ")
  | none => none

/-- Whether an answer to the question is yes. An empty line is; no line at all is not. -/
def isYes (answer : Option Text) : Bool :=
  match answer with
  | some line => ([[], "y", "yes"] : List Text).contains line.strip.lower
  | none => false

/-- Resumes or discards the progress that is offered. Lists of the arguments replace those of the
progress. -/
def decide (arguments : Arguments) (saved : Option Checkpoint) (answer : Option Text) :
    Attempt Unit := do
  if saved.isSome then
    if arguments.resume || (!arguments.fresh && isYes answer) then
      discard (attempt (·.resumeProgress))
      if !arguments.lists.isEmpty then attempt fun s => (.ok (), s.setLists arguments.lists)
    else attempt (·.discardProgress)

/-- Maps an attribute onto a column, both in one text with an equals sign between them. -/
def assign (item : Text) : Attempt Unit := do
  match Text.cut? (.scalar '=') item with
  | none => throw (.refusedFor ("Invalid mapping '" ++ item ++ "', expected FIELD=COLUMN"))
  | some (key, header) =>
    discard (attempt (·.assign key.strip (if header.isEmpty then none else some header)))

/-- Decides about saved progress, completes the mapping and starts the run. -/
def prepare (arguments : Arguments) (saved : Option Checkpoint) (answer : Option Text) :
    Attempt Unit := do
  decide arguments saved answer
  arguments.mappings.forM assign
  if !(← get).session.isRunnable then
    throw (.refusedFor "Email field mapping is required, pass --map email=COLUMN")
  attempt (·.begin)

/-! Driving. -/

def handled (handling : Handling) (session : Session) : Session :=
  let session :=
    if handling.stops then { session with engine := session.engine.cancel.2 } else session
  session.follow (session.engine.answer handling.reply)

def step {σ : Type} (deliver : Handler σ) (session : Session) (s : σ) : Session × σ :=
  let engine := session.engine
  match engine.stage with
  | .call _ _ contact =>
    let (handling, s) := deliver (engine.deliveryOf contact) s
    (handled handling session, s)
  | .rowNotice .. | .batchNotice | .finalNotice => (session.follow (engine.acknowledge none), s)
  | .turn | .release .. => (session.follow engine.proceed, s)
  | .idle | .ended _ => (session, s)

def drive {σ : Type} (deliver : Handler σ) : Nat → Import → σ → Import × σ
  | 0, i, s => (i, s)
  | fuel + 1, i, s =>
    if i.session.engine.stage.isBusy then
      let (session, s) := step deliver i.session s
      drive deliver fuel { i with session }.listen s
    else (i, s)

/-- More steps than a run takes: two for each row, two for each batch, and two for its end. -/
def stepsFor (rows : Nat) : Nat := 4 * rows + 4

/-! Concluding. -/

/-- Writes the report of rejected rows, if there are any and a file for it. -/
def report (place : Place) (arguments : Arguments) (entries : List ErrorEntry) : Attempt Unit := do
  let path := arguments.errorsOut.getD []
  if !path.isEmpty && !entries.isEmpty then
    let path := Path.ofText path
    let (written, tree) :=
      Report.write (← get).tree place.home path Report.defaultTitle [] entries
    modify (·.withTree tree)
    match written with
    | .error error => throw (.crash (.report error))
    | .ok () =>
      modify (·.say (Log.info .commandLine
        ("Rejected rows written to " ++ (Path.resolve place.directory path).text)))

def ofEntry (entry : ErrorEntry) : Log.Record :=
  Log.warning .commandLine
    ("Line " ++ Text.ofInt entry.line ++ " (" ++ entry.email ++ "): " ++ entry.message)

def conclude (place : Place) (arguments : Arguments) : Attempt ExitCode := do
  let engine := (← get).session.engine
  let state := engine.state
  match engine.stage with
  | .ended (.failed failure) => throw (.crash (.failed failure))
  | .ended .interrupted => throw (.crash .interrupted)
  | _ => pure ()
  state.errors.forM fun entry => modify (·.say (ofEntry entry))
  report place arguments state.errors
  match state.status with
  | .completed => return .completed
  | .failed =>
    modify (·.say (Log.error .commandLine ("Import failed: " ++ state.fatal.getD "None")))
    return .notCompleted
  | status =>
    modify (·.say (Log.warning .commandLine
      ("Import " ++ status.name ++ " at row " ++ Text.ofInt state.row ++ ", rerun to resume")))
    return .notCompleted

def exitOf : Except Halt ExitCode × Import → Except Crash ExitCode × Import
  | (.ok code, i) => (.ok code, i)
  | (.error (.refused record), i) => (.ok .notStarted, i.say record)
  | (.error (.crash crash), i) => (.error crash, i)

/-! The whole import. -/

structure Course (σ : Type) where
  exit : Except Crash ExitCode
  /-- what the operator was asked -/
  asked : Option Text
  final : Import
  /-- whoever delivered -/
  courier : σ

def finish {σ : Type} (place : Place) (arguments : Arguments) (deliver : Handler σ) (i : Import)
    (s : σ) : (Except Crash ExitCode × Import) × σ :=
  let rows := ((i.session.file?.map (·.totalRows))).getD 0
  let (i, s) := drive deliver (stepsFor rows) i s
  (exitOf ((conclude place arguments).run.run i), s)

/-- Imports a file, as far as that needs somebody to deliver. The operator would give the answer if
asked. -/
def conduct {σ : Type} (place : Place) (arguments : Arguments) (answer : Option Text)
    (deliver : Handler σ) (i : Import) (s : σ) : Course σ :=
  match (openInput arguments).run.run i with
  | (.error halt, i) =>
    let (exit, i) := exitOf (.error halt, i)
    ⟨exit, none, i, s⟩
  | (.ok saved, i) =>
    let asked := question? arguments saved
    match (prepare arguments saved answer).run.run i with
    | (.error halt, i) =>
      let (exit, i) := exitOf (.error halt, i)
      ⟨exit, asked, i, s⟩
    | (.ok (), i) =>
      let ((exit, i), s) := finish place arguments deliver i s
      ⟨exit, asked, i, s⟩

/-- Dismisses whoever delivered. If that fails, the import ends with the failure instead. -/
def Course.dismiss {σ : Type} (course : Course σ) (carrier : Carrier σ) : Course σ :=
  match carrier.dismiss course.courier with
  | (.accepted, courier) => { course with courier }
  | (.rejected failure, courier) => { course with exit := .error (.dismissal failure), courier }
  | (.interrupted, courier) => { course with exit := .error .interrupted, courier }

/-- Imports a file, and dismisses whoever delivers in any case. -/
def runImport {σ : Type} (place : Place) (arguments : Arguments) (answer : Option Text)
    (carrier : Carrier σ) (i : Import) (s : σ) : Course σ :=
  (conduct place arguments answer carrier.deliver i s).dismiss carrier

end Intake.CommandLine
