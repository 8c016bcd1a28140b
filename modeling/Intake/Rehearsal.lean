import Intake.Session

/-! Rehearsals: a session is played against surroundings that follow a script, which says what
happens during which delivery and which notice, and how each of them ends. -/
namespace Intake

inductive Cue
  | operate (action : Action)
  | togglePause
  | save
  | load
  | status
  /-- the task of the run is interrupted where it waits next -/
  | interrupt
  | startAgain
  | openText (name text : Text)
  | assign (key : Text) (header : Option Text)
  | setLists (lists : List Text)
  | discardProgress
  /-- the session is closed; the operator is asked if there is an answer -/
  | close (answer : Option Bool)

def Cue.name : Cue → Text
  | operate action => action.name
  | togglePause => "toggle_pause"
  | save => "save"
  | load => "load"
  | status => "status"
  | interrupt => "task_cancel"
  | startAgain => "start_again"
  | openText .. => "open_text"
  | assign .. => "set_mapping"
  | setLists _ => "set_lists"
  | discardProgress => "start_fresh"
  | close _ => "close"

inductive CueResult
  | flag (changed : Bool)
  | progress (loaded : Except LoadFailure (Option Checkpoint))
  | status (status : Status)
  | opened (offered : Option Checkpoint)
  | mapping (mapping : Mapping)
  | nothing
  | started
  | refused (error : SessionError)
  | raised (failure : Failure)
  | interrupted

structure Answering where
  call : Option Nat
  email : Option Text
  reply : Reply

structure Script where
  /-- what happens before, during and after the run, and each time that it is blocked -/
  before : List Cue
  during : List (Nat × List Cue)
  atNotice : List (Nat × List Cue)
  whenBlocked : List (List Cue)
  after : List Cue
  answers : List Answering
  /-- the notices that fail -/
  crashes : List (Nat × Failure)

def Script.empty : Script := ⟨[], [], [], [], [], [], []⟩

inductive Entry
  | event (event : Event)
  | cue (cue : Cue) (result : CueResult)
  /-- a session was closed, or not, and the operator was asked so many times -/
  | closing (result : CueResult) (asked : Nat)
  | blocked

structure Rehearsal where
  session : Session
  /-- whether the engine is played without what its session settles -/
  bare : Bool
  /-- whether there is anybody to notify -/
  listens : Bool
  script : Script
  /-- how a run is started once more -/
  again : Session → Except SessionError Unit × Session
  /-- where progress is looked for -/
  place : Text × Text
  calls : Nat
  notices : Nat
  interrupting : Bool
  trace : Array Entry

namespace Rehearsal

abbrev Play := StateM Rehearsal

def of (session : Session) (bare listens : Bool)
    (again : Session → Except SessionError Unit × Session) (place : Text × Text) : Rehearsal :=
  ⟨session, bare, listens, .empty, again, place, 0, 0, false, #[]⟩

def record (entry : Entry) : Play Unit := modify fun r => { r with trace := r.trace.push entry }

def cuesAt (n : Nat) (cues : List (Nat × List Cue)) : List Cue :=
  (cues.filter (·.1 = n)).flatMap (·.2)

def replyTo (script : Script) (n : Nat) (contact : Contact) : Reply :=
  let applies (a : Answering) : Bool :=
    a.call.all (· = n) && a.email.all fun email => contact.email? = some email
  ((script.answers.find? applies).map (·.reply)).getD .accepted

def follow (bare : Bool) (step : Engine → Engine) (s : Session) : Session :=
  if bare then { s with engine := step s.engine } else s.follow (step s.engine)

def ofResult : Except SessionError Outcome → CueResult
  | .ok .finished => .flag true
  | .ok (.failed failure) => .raised failure
  | .ok .interrupted => .interrupted
  | .error error => .refused error

def ofAnswer {α : Type} (encode : α → CueResult) : Except SessionError α → CueResult
  | .ok a => encode a
  | .error error => .refused error

def isNotice : Event → Bool
  | .notified _ => true
  | _ => false

mutual

/-- Changes the session, and plays what its engine reports, of which a notice can only be the last.
Answers the failure of the notice. Like each function here it has less fuel than its caller. -/
def change : Nat → (Session → Session) → Play (Option Failure)
  | 0, _ => pure none
  | fuel + 1, f => do
    let r ← get
    let s := f { r.session with engine := { r.session.engine with journal := [] } }
    let heard := s.engine.journal.filter fun event => r.listens || !isNotice event
    set { r with session := s, trace := r.trace ++ (heard.reverse.map Entry.event).toArray }
    if heard.head?.any isNotice then notice fuel else return none

def notice : Nat → Play (Option Failure)
  | 0 => pure none
  | fuel + 1 => do
    modify fun r => { r with notices := r.notices + 1 }
    let r ← get
    match ← perform fuel (cuesAt r.notices r.script.atNotice) with
    | some failure => return some failure
    | none => return r.script.crashes.lookup (← get).notices

def perform : Nat → List Cue → Play (Option Failure)
  | 0, _ | _, [] => pure none
  | fuel + 1, cue :: rest => do
    match ← play fuel cue with
    | some failure => return some failure
    | none => perform fuel rest

def performOutside : Nat → List Cue → Play Unit
  | 0, _ | _, [] => pure ()
  | fuel + 1, cue :: rest => do
    match ← play fuel cue with
    | some failure => record (.cue cue (.raised failure))
    | none => pure ()
    performOutside fuel rest

def play : Nat → Cue → Play (Option Failure)
  | 0, _ => pure none
  | fuel + 1, cue => do
    let r ← get
    let s := r.session
    let finish (result : CueResult) : Play (Option Failure) := do
      record (.cue cue result)
      return none
    let operate (f : Engine → Bool × Engine) : Play (Option Failure) := do
      match ← change fuel fun s => { s with engine := (f s.engine).2 } with
      | some failure => return some failure
      | none => finish (.flag (f s.engine).1)
    let ask (α : Type) (f : Session → Except SessionError α × Session) (encode : α → CueResult) :
        Play (Option Failure) := do
      discard (change fuel fun s => (f s).2)
      finish (ofAnswer encode (f s).1)
    match cue with
    | .operate action => operate (·.operate action)
    | .togglePause => operate (·.togglePause)
    | .save => operate (·.saveProgress)
    | .load =>
      let load (s : Session) : Except LoadFailure (Option Checkpoint) × Session :=
        let (loaded, events, store) := s.engine.store.load r.place.1 r.place.2
        (loaded, { s with engine := { s.engine with store }.noteAll (events.map .stored) })
      discard (change fuel fun s => (load s).2)
      finish (.progress (load s).1)
    | .status => finish (.status s.engine.state.status)
    | .interrupt =>
      modify fun r => { r with interrupting := true }
      finish (.flag true)
    | .startAgain =>
      match r.again s with
      | (.error error, s) =>
        modify fun r => { r with session := s }
        finish (.refused error)
      | (.ok (), _) => if r.bare then startInside fuel else finish .started
    | .openText name text => ask _ (·.openText name text) .opened
    | .assign key header => ask _ (·.assign key header) .mapping
    | .setLists lists => ask Unit (fun s => (.ok (), s.setLists lists)) fun _ => .nothing
    | .discardProgress => ask Unit (·.discardProgress) fun _ => .nothing
    | .close answer =>
      let closing := (s.beginClose answer).1
      let asked := if s.isActive && answer.isSome then 1 else 0
      match ← change fuel fun s => (s.beginClose answer).2 with
      | some failure => record (.closing (.raised failure) asked)
      | none =>
        match closing with
        | .closed => record (.closing (.flag true) asked)
        | .declined => record (.closing (.flag false) asked)
        | .stopping => awaitTask fuel asked
      return none

/-- Plays a run inside another one, up to the first turn or wait, where it is given up. -/
def startInside : Nat → Play (Option Failure)
  | 0 => pure none
  | fuel + 1 => do
    let r ← get
    let outer := r.session.engine.stage
    let put (released : Bool) (stage : Stage) : Play Unit := modify fun r => { r with
      session := { r.session with engine := { r.session.engine with released, stage } } }
    goOn fuel true (← change fuel fun s => (r.again s).2)
    let engine := (← get).session.engine
    match engine.stage with
    | .ended (.failed failure) =>
      put engine.released outer
      return some failure
    | .ended _ =>
      put engine.released outer
      record (.cue .startAgain .nothing)
    | _ =>
      put true outer
      record (.cue .startAgain .started)
    return none

def awaitTask : Nat → Nat → Play Unit
  | 0, _ => pure ()
  | fuel + 1, asked => do
    let (done, s) := (← get).session.awaitTask
    modify fun r => { r with session := s }
    match done with
    | some result => record (.closing (ofResult result) asked)
    | none =>
      goOn fuel false none
      match (← get).session.engine.stage with
      | .ended outcome => record (.closing (ofResult (.ok outcome)) asked)
      | _ => pure ()

/-- Plays the run to its end, after a notice that may have failed. One inside another run goes only
as far as it does not wait. -/
def goOn : Nat → Bool → Option Failure → Play Unit
  | 0, _, _ => pure ()
  | fuel + 1, inside, failure? => do
    let r ← get
    let step (f : Engine → Engine) : Play Unit := do
      goOn fuel inside (← change fuel (follow r.bare f))
    match r.session.engine.stage with
    | .idle | .ended _ => pure ()
    | .rowNotice .. | .batchNotice | .finalNotice => step (·.acknowledge failure?)
    | .call _ _ contact =>
      modify fun r => { r with calls := r.calls + 1 }
      let n := r.calls + 1
      match ← perform fuel (cuesAt n r.script.during) with
      | some failure => step (·.answer (.rejected failure))
      | none => step (·.answer (replyTo r.script n contact))
    | .turn =>
      if inside then pure () else step (if r.interrupting then (·.interrupt) else (·.proceed))
    | .release .. =>
      if inside then pure ()
      else if r.interrupting then step (·.interrupt)
      else if r.session.engine.released then step (·.proceed)
      else
        record .blocked
        modify fun r => { r with
          script := { r.script with whenBlocked := r.script.whenBlocked.drop 1 } }
        performOutside fuel (r.script.whenBlocked.head?.getD [.interrupt])
        goOn fuel inside none

end

def Script.size (script : Script) : Nat :=
  (script.before ++ script.after ++ script.during.flatMap (·.2) ++ script.atNotice.flatMap (·.2)
    ++ script.whenBlocked.flatten).length

/-- More steps than a run of so many rows can take under a script whose cues may start it again. -/
def fuelFor (script : Script) (rows : Nat) : Nat :=
  16 * (rows + 1) * (Script.size script + script.whenBlocked.length + 8)

def run (script : Script) (start : Session → Except SessionError Unit × Session) :
    Play (Except SessionError Outcome) := do
  modify fun r => { r with script, calls := 0, notices := 0, interrupting := false, trace := #[] }
  let rows := ((start (← get).session).2.engine.job?.map (·.file.totalRows)).getD 0
  let fuel := fuelFor script rows
  performOutside fuel script.before
  match start (← get).session with
  | (.error error, s) =>
    modify fun r => { r with session := s }
    performOutside fuel script.after
    return .error error
  | (.ok (), _) =>
    goOn fuel false (← change fuel fun s => (start s).2)
    performOutside fuel script.after
    let r ← get
    return .ok (match r.session.engine.stage with
      | .ended (.failed failure) => .failed failure
      | .ended outcome => if r.interrupting then .interrupted else outcome
      | _ => .finished)

end Rehearsal
end Intake
