import Intake.Proofs.Reaches
import Intake.Run.Engine

/-! The moves of the surroundings of a run and the states that it reaches by them. The engine waits
at each stage for one kind of answer, while operators act and time passes at any stage. -/
namespace Intake

inductive Move
  | answer (reply : Reply)
  | acknowledge (failure? : Option Failure)
  | proceed
  | interrupt
  | operate (action : Action)
  | save
  | tick (now : Int)
  deriving DecidableEq, Repr

namespace Event

def call? : Event → Option (Nat × Delivery)
  | submitted row delivery => some (row, delivery)
  | _ => none

def reply? : Event → Option (Nat × Reply)
  | replied row reply => some (row, reply)
  | _ => none

def handed? : Event → Option Checkpoint
  | handed checkpoint => some checkpoint
  | _ => none

def status? : Event → Option Status
  | started _ state | entered _ state | cutShort _ state => some state.status
  | _ => none

def isMark : Event → Bool
  | submitted .. | replied .. | handed _ => true
  | _ => false

def isKeeping : Event → Bool
  | stored _ | published _ => true
  | _ => false

def isLoss : Event → Bool
  | stored (.saveFailed ..) => true
  | _ => false

end Event

namespace Engine

def admits (e : Engine) : Move → Bool
  | .answer _ => match e.stage with
    | .call .. => true
    | _ => false
  | .acknowledge _ => match e.stage with
    | .rowNotice .. | .batchNotice | .finalNotice => true
    | _ => false
  | .proceed => match e.stage with
    | .turn => true
    | .release .. => e.released
    | _ => false
  | .interrupt => match e.stage with
    | .call .. | .turn | .release .. => true
    | _ => false
  | .operate _ | .save => true
  | .tick now => (Binary64.ofInt? now).isSome

def move (e : Engine) : Move → Engine
  | .answer reply => e.answer reply
  | .acknowledge failure? => e.acknowledge failure?
  | .proceed => e.proceed
  | .interrupt => e.interrupt
  | .operate action => (e.operate action).2
  | .save => e.save
  | .tick now => { e with store := { e.store with now }, now }

abbrev Moves (e : Engine) : List Move → Engine → Prop := Reaches admits move e

abbrev after? (e : Engine) (moves : List Move) : Option Engine := stateAfter? admits move e moves

def since (before after : Engine) : List Event := after.journal.reverse.drop before.journal.length

def callsSince (before after : Engine) : List (Nat × Delivery) :=
  (before.since after).filterMap Event.call?

def handedSince (before after : Engine) : List Checkpoint :=
  (before.since after).filterMap Event.handed?

def statusesSince (before after : Engine) : List Status :=
  (before.since after).filterMap Event.status?

def marks (journal : List Event) : List Event := journal.filter Event.isMark

def keepings (journal : List Event) : List Event := journal.filter Event.isKeeping

def handover (e : Engine) : List Event := e.snapshot?.toList.map Event.handed

theorem defaultBatchSize_pos : 0 < defaultBatchSize := by decide

/-! What each operation of the engine leaves alone and what it changes. -/

@[simp] theorem marks_cons (event : Event) (journal : List Event) :
    marks (event :: journal) = if event.isMark then event :: marks journal else marks journal := by
  simp [marks, List.filter_cons]

@[simp] theorem marks_append (first second : List Event) :
    marks (first ++ second) = marks first ++ marks second := by simp [marks]

@[simp] theorem keepings_cons (event : Event) (journal : List Event) :
    keepings (event :: journal)
      = if event.isKeeping then event :: keepings journal else keepings journal := by
  simp [keepings, List.filter_cons]

@[simp] theorem keepings_append (first second : List Event) :
    keepings (first ++ second) = keepings first ++ keepings second := by simp [keepings]

theorem filterMap_marks {α : Type} {view : Event → Option α} {journal : List Event}
    (marked : ∀ event, (view event).isSome → event.isMark) :
    (marks journal).filterMap view = journal.filterMap view := by
  induction journal with
  | nil => rfl
  | cons event rest ih =>
    have shown := marked event
    cases seen : view event <;> cases mark : event.isMark <;> simp_all

theorem since_of_append {before e : Engine} {happened : List Event}
    (journal : e.journal = happened ++ before.journal) : before.since e = happened.reverse := by
  rw [since, journal, List.reverse_append, List.drop_left' (by simp)]

@[simp] theorem note_fields (e : Engine) (event : Event) :
    (e.note event).workspace = e.workspace ∧ (e.note event).batchSize = e.batchSize ∧
      (e.note event).store = e.store ∧ (e.note event).job? = e.job? ∧
      (e.note event).state = e.state ∧ (e.note event).released = e.released ∧
      (e.note event).stage = e.stage ∧ (e.note event).journal = event :: e.journal :=
  ⟨rfl, rfl, rfl, rfl, rfl, rfl, rfl, rfl⟩

@[simp] theorem noteAll_fields (e : Engine) (events : List Event) :
    (e.noteAll events).workspace = e.workspace ∧ (e.noteAll events).batchSize = e.batchSize ∧
      (e.noteAll events).store = e.store ∧ (e.noteAll events).job? = e.job? ∧
      (e.noteAll events).state = e.state ∧ (e.noteAll events).released = e.released ∧
      (e.noteAll events).stage = e.stage ∧
      (e.noteAll events).journal = events.reverse ++ e.journal :=
  ⟨rfl, rfl, rfl, rfl, rfl, rfl, rfl, rfl⟩

@[simp] theorem enter_fields (e : Engine) (status : Status) :
    (e.enter status).workspace = e.workspace ∧ (e.enter status).batchSize = e.batchSize ∧
      (e.enter status).store = e.store ∧ (e.enter status).job? = e.job? ∧
      (e.enter status).state = { e.state with status } ∧
      (e.enter status).released = e.released ∧ (e.enter status).stage = e.stage ∧
      (e.enter status).journal = .entered e.fileName { e.state with status } :: e.journal :=
  ⟨rfl, rfl, rfl, rfl, rfl, rfl, rfl, rfl⟩

@[simp] theorem save_fields (e : Engine) :
    e.save.workspace = e.workspace ∧ e.save.batchSize = e.batchSize ∧ e.save.job? = e.job? ∧
      e.save.state = e.state ∧ e.save.released = e.released ∧ e.save.stage = e.stage ∧
      e.journal <:+ e.save.journal ∧ marks e.save.journal = e.handover ++ marks e.journal := by
  unfold save saveProgress handover
  cases e.snapshot? with
  | none => simp
  | some checkpoint =>
    have kept (first second : Event) : e.journal <:+ first :: second :: e.journal :=
      List.suffix_append [first, second] e.journal
    simp [Event.isMark, kept]

@[simp] theorem finish_fields (e : Engine) :
    e.finish.workspace = e.workspace ∧ e.finish.batchSize = e.batchSize ∧
      e.finish.store = e.store ∧ e.finish.job? = e.job? ∧
      e.finish.state = { e.state with
        status := if e.state.status = .cancelling then .cancelled else .completed } ∧
      e.finish.released = true ∧ e.finish.stage = .finalNotice ∧
      e.journal <:+ e.finish.journal ∧ marks e.finish.journal = marks e.journal := by
  have kept (first second : Event) : e.journal <:+ first :: second :: e.journal :=
    List.suffix_append [first, second] e.journal
  simp [finish, conclude, notify, Event.isMark, kept]

@[simp] theorem fail_fields (e : Engine) (failure : Failure) :
    (e.fail failure).workspace = e.workspace ∧ (e.fail failure).batchSize = e.batchSize ∧
      (e.fail failure).job? = e.job? ∧
      (e.fail failure).state = { e.state with status := .failed, fatal := some failure.text } ∧
      (e.fail failure).released = true ∧ (e.fail failure).stage = .finalNotice ∧
      e.journal <:+ (e.fail failure).journal ∧
      marks (e.fail failure).journal = e.handover ++ marks e.journal := by
  let failed := { e with state := { e.state with fatal := some failure.text } }.enter .failed
  have kept : failed.journal <:+ failed.save.journal := (save_fields failed).2.2.2.2.2.2.1
  have entered : e.journal <:+ failed.journal := List.suffix_cons _ _
  simp [fail, conclude, notify, Event.isMark, handover, snapshot?]
  exact ((entered.trans kept).trans (List.suffix_cons _ _))

@[simp] theorem interrupted_fields (e : Engine) :
    e.interrupted.workspace = e.workspace ∧ e.interrupted.batchSize = e.batchSize ∧
      e.interrupted.job? = e.job? ∧
      e.interrupted.state = { e.state with status := .cancelled } ∧
      e.interrupted.released = true ∧ e.interrupted.stage = .ended .interrupted ∧
      e.journal <:+ e.interrupted.journal ∧
      marks e.interrupted.journal = e.handover ++ marks e.journal := by
  have kept (first second : Event) : e.journal <:+ first :: second :: e.save.journal :=
    (save_fields e).2.2.2.2.2.2.1.trans (List.suffix_append [first, second] e.save.journal)
  simp [interrupted, setStatus, Event.isMark, kept]

@[simp] theorem submit_fields (e : Engine) (row stop : Nat) (contact : Contact) :
    (e.submit row stop contact).workspace = e.workspace ∧
      (e.submit row stop contact).batchSize = e.batchSize ∧
      (e.submit row stop contact).store = e.store ∧ (e.submit row stop contact).job? = e.job? ∧
      (e.submit row stop contact).state = e.state ∧
      (e.submit row stop contact).released = e.released ∧
      (e.submit row stop contact).stage = .call row stop contact ∧
      (e.submit row stop contact).journal
        = .submitted row (e.deliveryOf contact) :: e.journal :=
  ⟨rfl, rfl, rfl, rfl, rfl, rfl, rfl, rfl⟩

theorem accepted_fields {e : Engine} {row stop : Nat} {contact : Contact}
    (called : e.stage = .call row stop contact) :
    (e.answer .accepted).workspace = e.workspace ∧
      (e.answer .accepted).batchSize = e.batchSize ∧ (e.answer .accepted).store = e.store ∧
      (e.answer .accepted).job? = e.job? ∧
      (e.answer .accepted).state = { e.state with success := e.state.success + 1 } ∧
      (e.answer .accepted).released = e.released ∧
      (e.answer .accepted).stage = .rowNotice row stop ∧
      e.journal <:+ (e.answer .accepted).journal ∧
      marks (e.answer .accepted).journal = .replied row .accepted :: marks e.journal := by
  simp [answer, called, notify, Event.isMark, List.suffix_cons_iff]

theorem rejected_fields {e : Engine} {row stop : Nat} {contact : Contact}
    (called : e.stage = .call row stop contact) (failure : Failure) :
    (e.answer (.rejected failure)).workspace = e.workspace ∧
      (e.answer (.rejected failure)).batchSize = e.batchSize ∧
      (e.answer (.rejected failure)).store = e.store ∧
      (e.answer (.rejected failure)).job? = e.job? ∧
      (e.answer (.rejected failure)).state = e.state.reject (entryOf row contact failure) ∧
      (e.answer (.rejected failure)).released = e.released ∧
      (e.answer (.rejected failure)).stage = .rowNotice row stop ∧
      e.journal <:+ (e.answer (.rejected failure)).journal ∧
      marks (e.answer (.rejected failure)).journal
        = .replied row (.rejected failure) :: marks e.journal := by
  simp [answer, called, notify, Event.isMark, List.suffix_cons_iff]

@[simp] theorem closeBatch_fields (e : Engine) (stop : Nat) :
    (e.closeBatch stop).workspace = e.workspace ∧ (e.closeBatch stop).batchSize = e.batchSize ∧
      (e.closeBatch stop).job? = e.job? ∧
      (e.closeBatch stop).state = { e.state with row := stop } ∧
      (e.closeBatch stop).released = e.released ∧ (e.closeBatch stop).stage = .batchNotice ∧
      e.journal <:+ (e.closeBatch stop).journal ∧
      marks (e.closeBatch stop).journal
        = handover { e with state := { e.state with row := stop } } ++ marks e.journal := by
  let closed := { e with state := { e.state with row := (stop : Int) } }
  have kept (event : Event) : e.journal <:+ event :: closed.save.journal :=
    (save_fields closed).2.2.2.2.2.2.1.trans (List.suffix_cons _ _)
  simp [closeBatch, notify, Event.isMark, kept, closed]

end Engine

def Action.on : Action → Status → Status
  | pause, .running => .paused
  | resume, .paused => .running
  | cancel, .running | cancel, .paused => .cancelling
  | _, status => status

namespace Action

@[simp] theorem isActive_on (action : Action) (status : Status) :
    (action.on status).isActive = status.isActive := by
  cases action <;> cases status <;> rfl

@[simp] theorem isTerminal_on (action : Action) (status : Status) :
    (action.on status).isTerminal = status.isTerminal := by
  cases action <;> cases status <;> rfl

@[simp] theorem on_eq_completed (action : Action) (status : Status) :
    action.on status = .completed ↔ status = .completed := by
  cases action <;> cases status <;> simp [on]

end Action

namespace Engine

/-- An operator's action is answered by whether it changed the status. -/
theorem operate_changes (e : Engine) (action : Action) :
    (e.operate action).1 = true ↔ action.on e.state.status ≠ e.state.status := by
  cases action <;> cases same : e.state.status <;>
    simp [operate, pause, resume, cancel, ignore, Action.on, same]

def operatorMarks (e : Engine) (action : Action) : List Event :=
  if action ≠ .resume ∧ (e.operate action).1 = true then e.handover else []

private theorem operate_keeps (e : Engine) (action : Action) :
    e.journal <:+ (e.operate action).2.journal := by
  cases action with
  | pause =>
    by_cases running : e.state.status = .running
    · simp only [operate, pause, running, if_true]
      exact (save_fields { e.setStatus .paused with released := false }).2.2.2.2.2.2.1.trans
        (List.suffix_append [_, _] _)
    · simp only [operate, pause, running, if_false]
      exact List.suffix_cons _ _
  | resume =>
    by_cases paused : e.state.status = .paused
    · simp only [operate, resume, paused, if_true]
      exact List.suffix_append [_, _] e.journal
    · simp only [operate, resume, paused, if_false]
      exact List.suffix_cons _ _
  | cancel =>
    by_cases going : e.state.status = .running ∨ e.state.status = .paused
    · simp only [operate, cancel, going, if_true]
      exact (save_fields e).2.2.2.2.2.2.1.trans (List.suffix_append [_, _] e.save.journal)
    · simp only [operate, cancel, going, if_false]
      exact List.suffix_cons _ _

/-- An operator's action moves the status and the signal of release, and nothing else of a run. -/
@[simp] theorem operate_fields (e : Engine) (action : Action) :
    (e.operate action).2.workspace = e.workspace ∧
      (e.operate action).2.batchSize = e.batchSize ∧ (e.operate action).2.job? = e.job? ∧
      (e.operate action).2.state = { e.state with status := action.on e.state.status } ∧
      (e.operate action).2.stage = e.stage ∧ e.journal <:+ (e.operate action).2.journal ∧
      marks (e.operate action).2.journal = e.operatorMarks action ++ marks e.journal := by
  have kept := operate_keeps e action
  unfold operatorMarks
  cases action <;> cases same : e.state.status <;>
    simp [operate, pause, resume, cancel, ignore, Action.on, same, setStatus, notify,
      Event.isMark, handover, snapshot?] at kept ⊢ <;> simp [← same, kept]

/-! No operation of a run takes time of its own. -/

@[simp] theorem note_time (e : Engine) (event : Event) : (e.note event).now = e.now := rfl

@[simp] theorem noteAll_time (e : Engine) (events : List Event) : (e.noteAll events).now = e.now := rfl

@[simp] theorem save_time (e : Engine) : e.save.now = e.now := by
  unfold save saveProgress
  cases e.snapshot? with
  | none => rfl
  | some checkpoint => simp only [note_time]

@[simp] theorem setStatus_time (e : Engine) (status : Status) : (e.setStatus status).now = e.now := rfl

@[simp] theorem enter_time (e : Engine) (status : Status) : (e.enter status).now = e.now := rfl

@[simp] theorem conclude_time (e : Engine) : e.conclude.now = e.now := rfl

@[simp] theorem finish_time (e : Engine) : e.finish.now = e.now := by
  simp only [finish, conclude_time, enter_time]

@[simp] theorem fail_time (e : Engine) (failure : Failure) : (e.fail failure).now = e.now := by
  simp only [fail, conclude_time, save_time, enter_time]

@[simp] theorem interrupted_time (e : Engine) : e.interrupted.now = e.now := by
  simp only [interrupted, note_time]
  exact e.save_time

@[simp] theorem closeBatch_time (e : Engine) (stop : Nat) : (e.closeBatch stop).now = e.now := by
  simp only [closeBatch, notify, note_time, save_time]

@[simp] theorem answer_time (e : Engine) (reply : Reply) : (e.answer reply).now = e.now := by
  unfold answer
  cases e.stage <;> cases reply <;> simp [notify]

@[simp] theorem operate_time (e : Engine) (action : Action) : (e.operate action).2.now = e.now := by
  cases action with
  | pause =>
    simp only [operate, pause]
    split_ifs
    · simp only [notify, note_time, save_time, setStatus_time]
    · rfl
  | resume =>
    simp only [operate, resume]
    split_ifs <;> rfl
  | cancel =>
    simp only [operate, cancel]
    split_ifs
    · exact e.save_time
    · rfl

end Engine
end Intake
