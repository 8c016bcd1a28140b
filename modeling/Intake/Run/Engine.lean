import Intake.Run.Event

/-! The engine walks the rows of a file in batches and hands each contact to its surroundings for
delivery. Whenever it needs an answer it stops at a stage; the surroundings answer it, and may
operate on it at any stage. A run that is paused goes on to its next row before it waits. -/
namespace Intake

/-- What a run was given: its file, its mapping once it was checked, its lists, each of them once, and
the calendar that its dates are read by. -/
structure Job where
  file : ContactFile
  mapping : Mapping
  lists : List Text
  calendar : Calendar

/-- Where the engine waits for its surroundings. Rows count from zero, and a batch ends before its
stop. -/
inductive Stage
  /-- before the first run -/
  | idle
  /-- for the reply to the delivery of a row -/
  | call (row stop : Nat) (contact : Contact)
  /-- for the return of the notice after a row -/
  | rowNotice (row stop : Nat)
  /-- for the return of the notice after a batch -/
  | batchNotice
  /-- for its turn after a batch -/
  | turn
  /-- for its release before a row, while it is paused -/
  | release (row stop : Nat)
  /-- for the return of the notice after a run -/
  | finalNotice
  /-- after a run -/
  | ended (outcome : Outcome)

def Stage.isBusy : Stage → Bool
  | idle | ended _ => false
  | _ => true

inductive StartError
  | active
  | mapping (error : MappingError)
  deriving DecidableEq, Repr

def StartError.message : StartError → Text
  | active => "An import is already in progress"
  | mapping error => error.message

structure Engine where
  workspace : Text
  batchSize : Nat
  batchSize_pos : 0 < batchSize
  store : ProgressStore
  /-- what the latest run was given -/
  job? : Option Job
  state : RunState
  /-- the signal that a paused run waits for -/
  released : Bool
  stage : Stage
  /-- what happened, the latest first -/
  journal : List Event
  /-- the time at which cells are read -/
  now : Int

namespace Engine

def defaultBatchSize : Nat := 25

/-- The line of the first row: the header is line one. -/
def firstLine : Int := 2

def of (workspace : Text) (batchSize : Nat) (batchSize_pos : 0 < batchSize)
    (store : ProgressStore) : Engine :=
  ⟨workspace, batchSize, batchSize_pos, store, none, .initial, true, .idle, [], store.now⟩

/-- An engine before its first run, if the size of a batch is positive. -/
def make? (workspace : Text) (batchSize : Int) (store : ProgressStore) : Option Engine :=
  if h : 0 < batchSize.toNat then some (of workspace batchSize.toNat h store) else none

def batchSizeMessage : Text := "batch_size must be positive"

def note (e : Engine) (event : Event) : Engine := { e with journal := event :: e.journal }

def noteAll (e : Engine) (events : List Event) : Engine :=
  { e with journal := events.reverse ++ e.journal }

/-- How many batches a number of rows takes: their quotient in floating point, rounded up. -/
def batches (batchSize rows : Nat) : Int :=
  if rows = 0 then 0 else ((Binary64.ofQuotient false rows batchSize).ceil?).getD 0

def snapshot? (e : Engine) : Option Checkpoint :=
  e.job?.map fun job =>
    { fileName := job.file.name
      row := e.state.row
      totalRows := e.state.totalRows
      batch := e.state.batch
      totalBatches := e.state.totalBatches
      mapping := job.mapping
      lists := job.lists
      savedAt := 0 }

/-- Saves the progress of the latest run. Answers whether it was saved. -/
def saveProgress (e : Engine) : Bool × Engine :=
  match e.snapshot? with
  | none => (false, e)
  | some checkpoint =>
    let (saved, event, store) := e.store.save e.workspace checkpoint.fileName checkpoint
    (saved, ({ e with store }.note (.handed checkpoint)).note (.stored event))

def save (e : Engine) : Engine := e.saveProgress.2

def setStatus (e : Engine) (status : Status) : Engine :=
  { e with state := { e.state with status } }

def fileName (e : Engine) : Text := (e.job?.map (·.file.name)).getD []

def enter (e : Engine) (status : Status) : Engine :=
  let e := e.setStatus status
  e.note (.entered e.fileName e.state)

def notify (e : Engine) : Engine := e.note (.notified e.state)

/-! Operators. -/

def ignore (e : Engine) (action : Action) : Bool × Engine :=
  (false, e.note (.ignored action e.state.status))

def pause (e : Engine) : Bool × Engine :=
  if e.state.status = .running then
    let e := { e.setStatus .paused with released := false }.save
    (true, (e.note (.entered e.fileName e.state)).notify)
  else e.ignore .pause

def resume (e : Engine) : Bool × Engine :=
  if e.state.status = .paused then
    (true, ({ e with released := true }.enter .running).notify)
  else e.ignore .resume

def cancel (e : Engine) : Bool × Engine :=
  if e.state.status = .running ∨ e.state.status = .paused then
    (true, ({ e.save with released := true }.enter .cancelling).notify)
  else e.ignore .cancel

/-- Changes the status as an operator asks. Answers whether it was changed. -/
def operate (e : Engine) : Action → Bool × Engine
  | .pause => e.pause
  | .resume => e.resume
  | .cancel => e.cancel

/-- Resumes a paused run, and pauses any other. -/
def togglePause (e : Engine) : Bool × Engine :=
  if e.state.status = .paused then e.resume else e.pause

/-! The run. -/

/-- Lets a waiting run go, and notifies the surroundings of the end. -/
def conclude (e : Engine) : Engine :=
  { e with released := true, stage := .finalNotice }.notify

/-- Ends the walk: a run that is being cancelled is cancelled, any other is completed. -/
def finish (e : Engine) : Engine :=
  (e.enter (if e.state.status = .cancelling then .cancelled else .completed)).conclude

/-- Ends the run by a failure that is not one of a delivery. -/
def fail (e : Engine) (failure : Failure) : Engine :=
  ({ e with state := { e.state with fatal := some failure.text } }.enter .failed).save.conclude

/-- Ends the run at once. -/
def interrupted (e : Engine) : Engine :=
  let e := { e.save.setStatus .cancelled with released := true, stage := .ended .interrupted }
  (e.note (.cutShort e.fileName e.state)).note (.ended .interrupted)

def contactAt (e : Engine) (row : Nat) : List Discard × Except OversizedInteger Contact :=
  match e.job? with
  | none => ([], .ok [])
  | some job =>
    Contact.read (job.calendar e.now) job.file (job.file.rows[row]?.getD []) job.mapping

/-- The delivery of a contact: to the lists of the run, if there are any. -/
def deliveryOf (e : Engine) (contact : Contact) : Delivery :=
  .of e.workspace ((e.job?.map (·.lists)).getD []) contact

def submit (e : Engine) (row stop : Nat) (contact : Contact) : Engine :=
  { e with stage := .call row stop contact }.note (.submitted row (e.deliveryOf contact))

/-- Ends a batch: progress is saved, and the surroundings are notified. -/
def closeBatch (e : Engine) (stop : Nat) : Engine :=
  { { e with state := { e.state with row := stop } }.save with stage := .batchNotice }.notify

/-- Goes on to the next row of a batch whose contact has an email. Before each row the run waits
if it is paused, and ends if it is being cancelled. -/
def walk (e : Engine) (row stop : Nat) : Engine :=
  if row < stop then
    if e.state.status = .paused then { e with stage := .release row stop }
    else if e.state.status = .cancelling then e.finish
    else
      let (discards, contact) := e.contactAt row
      let e := e.noteAll (discards.map .discarded)
      match contact with
      | .error error => e.fail ⟨"ValueError", error.message⟩
      | .ok contact =>
        if contact.email?.isSome then e.submit row stop contact else walk e (row + 1) stop
  else e.closeBatch stop
termination_by stop - row

/-- Begins the next batch, or ends the walk if there is none or the run is being cancelled. -/
def nextBatch (e : Engine) : Engine :=
  if e.state.row < e.state.totalRows ∧ e.state.status ≠ .cancelling then
    let start := e.state.row.toNat
    let stop := min (start + e.batchSize) e.state.totalRows.toNat
    let e := { e with state := { e.state with batch := (start / e.batchSize + 1 : Nat) } }
    (e.note (.batchBegun e.state stop)).walk start stop
  else e.finish

/-- The state at the start of a run. -/
def reset (e : Engine) (totalRows row : Nat) : RunState :=
  { e.state with
    status := .running
    row
    batch := batches e.batchSize row
    totalRows
    totalBatches := batches e.batchSize totalRows
    success := 0
    failure := 0
    errors := []
    fatal := none }

/-- Starts a run with a mapping that was checked, at a row that is one of the file or its end. -/
def begin (e : Engine) (job : Job) (row : Nat) : Engine :=
  let e := { e with job? := some job, state := e.reset job.file.totalRows row, released := true }
  (e.note (.started job.file.name e.state)).nextBatch

/-- A row to resume from, or the first one if the file has no such row. -/
def resumeRow (file : ContactFile) (row : Int) : Nat :=
  if 0 ≤ row ∧ row ≤ file.totalRows then row.toNat else 0

/-- Starts a run, unless one is going on or the mapping cannot be used. -/
def start (e : Engine) (job : Job) (row : Int) : Except StartError Unit × Engine :=
  if e.state.status.isActive then (.error .active, e)
  else
    let e := if e.state.status.isTerminal then e.setStatus .idle else e
    match job.mapping.validate job.file.headers with
    | .error error => (.error (.mapping error), e)
    | .ok (mapping, dropped) =>
      let e := if dropped.isEmpty then e else e.note (.mappingReduced dropped)
      let first := resumeRow job.file row
      let e := if (first : Int) = row then e else e.note (.resumeRowIgnored row)
      (.ok (), e.begin { job with mapping, lists := Entries.distinct job.lists } first)

/-! Answers of the surroundings. An answer to another stage than the current one changes nothing. -/

def entryOf (row : Nat) (contact : Contact) (failure : Failure) : ErrorEntry :=
  ⟨row + firstLine, contact.email?.getD "Unknown", failure.text⟩

def answer (e : Engine) (reply : Reply) : Engine :=
  match e.stage with
  | .call row stop contact =>
    let e := e.note (.replied row reply)
    match reply with
    | .accepted =>
      { e with
        state := { e.state with success := e.state.success + 1 }
        stage := .rowNotice row stop }.notify
    | .rejected failure =>
      let entry := entryOf row contact failure
      let e := e.note (.rejected entry)
      { e with state := e.state.reject entry, stage := .rowNotice row stop }.notify
    | .interrupted => e.interrupted
  | _ => e

/-- Takes the return of a notice, which may have failed. -/
def acknowledge (e : Engine) (failure? : Option Failure) : Engine :=
  match e.stage, failure? with
  | .rowNotice row stop, none => e.walk (row + 1) stop
  | .batchNotice, none => { e with stage := .turn }
  | .rowNotice _ _, some failure | .batchNotice, some failure => e.fail failure
  | .finalNotice, none => { e with stage := .ended .finished }.note (.ended .finished)
  | .finalNotice, some failure =>
    { e with stage := .ended (.failed failure) }.note (.ended (.failed failure))
  | _, _ => e

/-- Lets the run go on, after a batch or once it is released. -/
def proceed (e : Engine) : Engine :=
  match e.stage with
  | .turn => e.nextBatch
  | .release row stop => if e.released then e.walk row stop else e
  | _ => e

/-- Interrupts the run where it waits for others than its notices. -/
def interrupt (e : Engine) : Engine :=
  match e.stage with
  | .call row .. => (e.note (.replied row .interrupted)).interrupted
  | .turn | .release .. => e.interrupted
  | _ => e

end Engine
end Intake
