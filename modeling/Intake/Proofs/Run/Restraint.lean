import Intake.Proofs.Run.Ending
import Intake.Proofs.Run.Statuses

/-! When deliveries begin. A move begins one delivery at most, as the last thing that happens in it,
and only in a run that is running; so none begins between a pause and the resumption after it, and
none after a cancellation. -/
namespace Intake.Engine

def Withholds (e e' : Engine) : Prop :=
  ∃ happened, e'.journal = happened ++ e.journal ∧ happened.filterMap Event.call? = []

def Delivers (e e' : Engine) : Prop :=
  ∃ row delivery skipped, e'.journal = .submitted row delivery :: (skipped ++ e.journal) ∧
    skipped.filterMap Event.call? = [] ∧ skipped.filterMap Event.status? = []

namespace Withholds
variable {e e' e'' : Engine}

theorem refl (e : Engine) : Withholds e e := ⟨[], rfl, rfl⟩

theorem trans (first : Withholds e e') (second : Withholds e' e'') : Withholds e e'' := by
  obtain ⟨happened, journal, none⟩ := first
  obtain ⟨later, journal', none'⟩ := second
  exact ⟨later ++ happened, by rw [journal', journal, List.append_assoc], by simp [none, none']⟩

theorem kept (withholds : Withholds e e') : e.journal <:+ e'.journal := by
  obtain ⟨happened, journal, _⟩ := withholds
  exact ⟨happened, journal.symm⟩

theorem callsSince (withholds : Withholds e e') : e.callsSince e' = [] := by
  obtain ⟨happened, journal, none⟩ := withholds
  rw [Engine.callsSince, since_of_append journal, List.filterMap_reverse, none]
  rfl

theorem of_marks (new : List Event) (kept : e.journal <:+ e'.journal)
    (same : marks e'.journal = new ++ marks e.journal) (none : new.filterMap Event.call? = []) :
    Withholds e e' := by
  obtain ⟨happened, grown⟩ := kept
  rw [← grown, marks_append, List.append_left_inj] at same
  exact ⟨happened, grown.symm, by rw [← filterMap_marks call_isMark, same, none]⟩

theorem noteAll (e : Engine) (discards : List Discard) :
    Withholds e (e.noteAll (discards.map .discarded)) :=
  ⟨_, rfl, by simp [Event.call?]⟩

theorem finish (e : Engine) : Withholds e e.finish := of_marks [] (by simp) (by simp) rfl

theorem fail (e : Engine) (failure : Failure) : Withholds e (e.fail failure) :=
  of_marks e.handover (by simp) (by simp) (by simp)

theorem interrupted (e : Engine) : Withholds e e.interrupted :=
  of_marks e.handover (by simp) (by simp) (by simp)

theorem closeBatch (e : Engine) (stop : Nat) : Withholds e (e.closeBatch stop) :=
  of_marks _ (by simp) (closeBatch_fields e stop).2.2.2.2.2.2.2 (by simp)

theorem operate (e : Engine) (action : Action) : Withholds e (e.operate action).2 :=
  of_marks (e.operatorMarks action) (by simp) (by simp) (by simp)

theorem save (e : Engine) : Withholds e e.save :=
  of_marks e.handover (by simp) (by simp) (by simp)

theorem note (e : Engine) {event : Event} (other : event.call? = none) : Withholds e (e.note event) :=
  ⟨[event], rfl, by simp [other]⟩

theorem answer (e : Engine) (reply : Reply) : Withholds e (e.answer reply) := by
  cases stage : e.stage
  case call row stop contact =>
    cases reply with
    | accepted =>
      exact of_marks [.replied row .accepted] (accepted_fields stage).2.2.2.2.2.2.2.1
        (accepted_fields stage).2.2.2.2.2.2.2.2 rfl
    | rejected failure =>
      exact of_marks [.replied row (.rejected failure)]
        (rejected_fields stage failure).2.2.2.2.2.2.2.1
        (rejected_fields stage failure).2.2.2.2.2.2.2.2 rfl
    | interrupted =>
      have cut : e.answer .interrupted = (e.note (.replied row .interrupted)).interrupted := by
        simp [Engine.answer, stage]
      rw [cut]
      exact (note e rfl).trans (interrupted _)
  all_goals
    have same : e.answer reply = e := by simp [Engine.answer, stage]
    rw [same]
    exact refl e

end Withholds

theorem Delivers.kept {e e' : Engine} (delivers : Delivers e e') : e.journal <:+ e'.journal := by
  obtain ⟨row, delivery, skipped, journal, _⟩ := delivers
  exact ⟨.submitted row delivery :: skipped, journal.symm⟩

theorem Delivers.after {e e' e'' : Engine} (delivers : Delivers e' e'') (happened : List Event)
    (journal : e'.journal = happened ++ e.journal) (calls : happened.filterMap Event.call? = [])
    (statuses : happened.filterMap Event.status? = []) : Delivers e e'' := by
  obtain ⟨row, delivery, skipped, begun, none, silent⟩ := delivers
  exact ⟨row, delivery, skipped ++ happened, by rw [begun, journal, List.append_assoc],
    by simp [none, calls], by simp [silent, statuses]⟩

/-- A walk over rows begins a delivery only if the run is neither paused nor being cancelled. -/
theorem calls_walk (e : Engine) (row stop : Nat) :
    Withholds e (e.walk row stop) ∨ e.state.status ≠ .paused ∧ e.state.status ≠ .cancelling ∧
      Delivers e (e.walk row stop) := by
  fun_induction walk e row stop with
  | case1 e row inside paused => exact .inl (.refl e)
  | case2 e row inside unpaused cancelling => exact .inl (.finish e)
  | case3 e row inside unpaused going discards noted error =>
    exact .inl ((Withholds.noteAll e discards).trans (.fail noted _))
  | case4 e row inside unpaused going discards noted contact due =>
    exact .inr ⟨unpaused, going, row, _, _, rfl, by simp [Event.call?], by simp [Event.status?]⟩
  | case5 e row inside unpaused going discards noted contact blank read =>
    rename_i ih
    obtain withholds | ⟨_, _, delivers⟩ := ih
    · exact .inl ((Withholds.noteAll e discards).trans withholds)
    · refine .inr ⟨unpaused, going, delivers.after _ rfl ?_ ?_⟩
      · simp [Event.call?]
      · simp [Event.status?]
  | case6 e row outside => exact .inl (.closeBatch e stop)

theorem calls_nextBatch (e : Engine) :
    Withholds e e.nextBatch ∨ e.state.status ≠ .paused ∧ e.state.status ≠ .cancelling ∧
      Delivers e e.nextBatch := by
  unfold nextBatch
  split_ifs with left
  · let start := e.state.row.toNat
    let stop := min (start + e.batchSize) e.state.totalRows.toNat
    let counted := { e with state := { e.state with batch := (start / e.batchSize + 1 : Nat) } }
    let opened := counted.note (.batchBegun counted.state stop)
    have opening : Withholds e opened := ⟨[_], rfl, rfl⟩
    obtain withholds | ⟨unpaused, going, delivers⟩ := calls_walk opened start stop
    · exact .inl (opening.trans withholds)
    · exact .inr ⟨unpaused, going, delivers.after [_] rfl rfl rfl⟩
  · exact .inl (.finish e)

/-- A move begins a delivery only if the run is neither paused, nor being cancelled, nor over. -/
theorem calls_move (e : Engine) (move : Move) :
    Withholds e (e.move move) ∨ e.state.status ≠ .paused ∧ e.state.status ≠ .cancelling ∧
      ¬ e.IsOver ∧ Delivers e (e.move move) := by
  have walking (going : ¬ e.IsOver) {e' : Engine}
      (calls : Withholds e e' ∨ e.state.status ≠ .paused ∧ e.state.status ≠ .cancelling ∧
        Delivers e e') :
      Withholds e e' ∨ e.state.status ≠ .paused ∧ e.state.status ≠ .cancelling ∧ ¬ e.IsOver ∧
        Delivers e e' :=
    calls.imp id fun ⟨unpaused, uncancelled, delivers⟩ => ⟨unpaused, uncancelled, going, delivers⟩
  cases move with
  | answer reply => exact .inl (.answer e reply)
  | acknowledge failure? =>
    cases stage : e.stage <;> cases failure? <;> simp only [Engine.move, acknowledge, stage]
    case rowNotice.none => exact walking (by simp [IsOver, stage]) (calls_walk e _ _)
    case rowNotice.some | batchNotice.some => exact .inl (.fail e _)
    case finalNotice.none | finalNotice.some => exact .inl ⟨[_], rfl, rfl⟩
    all_goals exact .inl (.refl e)
  | proceed =>
    cases stage : e.stage <;> simp only [Engine.move, proceed, stage]
    case turn => exact walking (by simp [IsOver, stage]) (calls_nextBatch e)
    case release row stop =>
      split_ifs
      · exact walking (by simp [IsOver, stage]) (calls_walk e _ _)
      · exact .inl (.refl e)
    all_goals exact .inl (.refl e)
  | interrupt =>
    cases stage : e.stage <;> simp only [Engine.move, interrupt, stage]
    case call row stop contact => exact .inl ((Withholds.note e rfl).trans (.interrupted _))
    case turn | release => exact .inl (.interrupted e)
    all_goals exact .inl (.refl e)
  | operate action => exact .inl (.operate e action)
  | save => exact .inl (.save e)
  | tick now => exact .inl ⟨[], rfl, rfl⟩

/-- A move begins a delivery only in a run that is running. -/
theorem Placed.calls_move {before e : Engine} {plan : Job} {first : Nat}
    (placed : Placed before plan first .stage e) (move : Move) :
    Withholds e (e.move move) ∨ e.state.status = .running ∧ Delivers e (e.move move) := by
  refine (e.calls_move move).imp id fun ⟨unpaused, uncancelled, going, delivers⟩ => ⟨?_, delivers⟩
  have active := placed.active going
  cases status : e.state.status <;> simp_all [Status.isActive]

/-! The journal of an engine only grows. -/

theorem journal_nextBatch (e : Engine) : e.journal <:+ e.nextBatch.journal := by
  obtain withholds | ⟨_, _, delivers⟩ := calls_nextBatch e
  · exact withholds.kept
  · exact delivers.kept

theorem journal_move (e : Engine) (move : Move) : e.journal <:+ (e.move move).journal := by
  obtain withholds | ⟨_, _, _, delivers⟩ := e.calls_move move
  · exact withholds.kept
  · exact delivers.kept

theorem journal_moves {e e' : Engine} {moves : List Move} (reached : Moves e moves e') :
    e.journal <:+ e'.journal := by
  induction reached with
  | none => exact List.suffix_rfl
  | next move _ _ ih => exact ih.trans (journal_move _ move)

theorem journal_start (e : Engine) (job : Job) (row : Int) :
    e.journal <:+ (e.start job row).2.journal := by
  cases active : e.state.status.isActive with
  | true => simp [start, active]
  | false =>
    cases valid : job.mapping.validate job.file.headers with
    | error error =>
      simp only [start, active, valid]
      split_ifs <;> exact List.suffix_rfl
    | ok result =>
      obtain ⟨e₀, begun, started⟩ := start_valid e job row active valid
      rw [started]
      exact begun.kept.trans (journal_nextBatch e₀)

theorem started_mem_since (before : Engine) (job : Job) (row : Int) {mapping : Mapping}
    {dropped : List Text} (idle : before.state.status.isActive = false)
    (valid : job.mapping.validate job.file.headers = .ok (mapping, dropped)) :
    .started job.file.name (before.reset job.file.totalRows (resumeRow job.file row))
      ∈ before.since (before.start job row).2 := by
  obtain ⟨opened, _, told, started⟩ := start_told before job row idle valid
  obtain ⟨more, grown⟩ := journal_nextBatch opened
  rw [started, since, ← grown, told, ← List.append_assoc _ _ before.journal]
  simp

/-- A run with a mapping that fits its file as a whole, from a row of the file, first tells that it
starts there. -/
theorem start_announced (before : Engine) {job : Job} {row : Nat}
    (idle : before.state.status.isActive = false)
    (valid : job.mapping.validate job.file.headers = .ok (job.mapping, []))
    (inside : row ≤ job.file.totalRows) :
    (before.since (before.start job row).2).head?
      = some (.started job.file.name (before.reset job.file.totalRows row)) := by
  have at_row : resumeRow job.file row = row := by simp [resumeRow, inside]
  obtain ⟨opened, _, told, started⟩ := start_told before job row idle valid
  simp only [at_row, if_pos, List.isEmpty_nil, List.nil_append] at told
  obtain ⟨more, grown⟩ := journal_nextBatch opened
  have journal : opened.nextBatch.journal
      = (more ++ [.started job.file.name (before.reset job.file.totalRows row)]) ++
        before.journal := by
    rw [← grown, told, List.append_assoc]
    rfl
  rw [started, since_of_append journal, List.reverse_append]
  rfl

def Guarded (before e : Engine) : Prop :=
  ∃ happened, e.journal = happened ++ before.journal ∧
    (happened.filterMap Event.status?).head? = some e.state.status ∧
    ∀ later row delivery earlier, happened = later ++ .submitted row delivery :: earlier →
      (earlier.filterMap Event.status?).head? = some .running

namespace Guarded
variable {before e e' : Engine} {path : List Status}

private theorem head?_entered {happened earlier : List Event} {status : Status}
    (same : (happened.filterMap Event.status?).reverse = path)
    (latest : (earlier.filterMap Event.status?).head? = some status) :
    ((happened ++ earlier).filterMap Event.status?).head? = some (path.getLast?.getD status) := by
  rw [List.filterMap_append, List.head?_append, latest, ← same, List.getLast?_reverse]
  cases (happened.filterMap Event.status?).head? <;> rfl

private theorem append {happened more : List Event}
    (none : more.filterMap Event.call? = [])
    (guarded : ∀ later row delivery earlier, happened = later ++ .submitted row delivery :: earlier →
      (earlier.filterMap Event.status?).head? = some .running) :
    ∀ later row delivery earlier, more ++ happened = later ++ .submitted row delivery :: earlier →
      (earlier.filterMap Event.status?).head? = some .running := by
  intro later row delivery earlier split
  obtain ⟨rest, rfl, inside⟩ | ⟨rest, inside, past⟩ := List.append_eq_append_iff.mp split
  · exact guarded rest row delivery earlier inside
  · cases rest with
    | nil => exact guarded [] row delivery earlier past.symm
    | cons event rest =>
      obtain ⟨rfl, -⟩ := List.cons.inj past
      simp [inside, Event.call?] at none

theorem withheld (guarded : Guarded before e) (enters : Enters e e' path)
    (withholds : Withholds e e') : Guarded before e' := by
  obtain ⟨happened, journal, latest, calls⟩ := guarded
  obtain ⟨more, journal', same, status⟩ := enters
  obtain ⟨more', journal'', none⟩ := withholds
  obtain rfl : more' = more := List.append_cancel_right (journal''.symm.trans journal')
  exact ⟨more' ++ happened, by rw [journal', journal, List.append_assoc],
    by rw [status, head?_entered same latest], append none calls⟩

theorem delivered (guarded : Guarded before e) (enters : Enters e e' path)
    (running : e.state.status = .running) (delivers : Delivers e e') : Guarded before e' := by
  obtain ⟨happened, journal, latest, calls⟩ := guarded
  obtain ⟨more, journal', same, status⟩ := enters
  obtain ⟨row, delivery, skipped, journal'', none, silent⟩ := delivers
  obtain rfl : .submitted row delivery :: skipped = more :=
    List.append_cancel_right (journal''.symm.trans journal')
  refine ⟨.submitted row delivery :: (skipped ++ happened), by rw [journal'', journal]; simp,
    by rw [status]; exact head?_entered same latest, ?_⟩
  intro later row' delivery' earlier split
  cases later with
  | nil =>
    obtain ⟨-, rfl⟩ := List.cons.inj split
    simp [silent, latest, running]
  | cons _ later =>
    exact append none calls later row' delivery' earlier (List.cons.inj split).2

theorem begun {plan : Job} {first : Nat} (begun : Begun before plan first e) : Guarded before e := by
  obtain ⟨happened, journal, same, status⟩ := enters_begun begun
  have withholds : Withholds before e := .of_marks [] begun.kept begun.marks rfl
  obtain ⟨happened', journal', none⟩ := withholds
  obtain rfl : happened' = happened := List.append_cancel_right (journal'.symm.trans journal)
  refine ⟨happened', journal, ?_, ?_⟩
  · rw [status, ← List.getLast?_reverse, same]
    rfl
  · rintro later row delivery earlier rfl
    simp [Event.call?] at none

theorem nextBatch {plan : Job} {first : Nat} (begun : Begun before plan first e) :
    Guarded before e.nextBatch := by
  obtain ⟨path, enters, _⟩ := enters_nextBatch e
  obtain withholds | ⟨_, _, delivers⟩ := calls_nextBatch e
  · exact (Guarded.begun begun).withheld enters withholds
  · exact (Guarded.begun begun).delivered enters (by simp [begun.state, reset]) delivers

theorem move {plan : Job} {first : Nat} (guarded : Guarded before e)
    (placed : Placed before plan first .stage e) (move : Move) (admitted : e.admits move = true) :
    Guarded before (e.move move) := by
  obtain ⟨path, enters, _⟩ := enters_move placed move admitted
  obtain withholds | ⟨running, delivers⟩ := placed.calls_move move
  · exact guarded.withheld enters withholds
  · exact guarded.delivered enters running delivers

theorem since {earlier later : List Event} {row : Nat} {delivery : Delivery}
    (guarded : Guarded before e)
    (split : before.since e = earlier ++ .submitted row delivery :: later) :
    (earlier.filterMap Event.status?).getLast? = some .running := by
  obtain ⟨happened, journal, _, calls⟩ := guarded
  rw [since_of_append journal] at split
  have here : happened = later.reverse ++ .submitted row delivery :: earlier.reverse := by
    rw [← List.reverse_reverse happened, split]
    simp
  have running := calls _ _ _ _ here
  rwa [List.filterMap_reverse, List.head?_reverse] at running

end Guarded

/-- Throughout a run each delivery begins while the run is running. -/
theorem Course.guarded {before e₀ e : Engine} {plan : Job} {first : Nat} {moves : List Move}
    (begun : Begun before plan first e₀) (reached : Moves e₀.nextBatch moves e) :
    Guarded before e := by
  induction reached with
  | none => exact .nextBatch begun
  | next move run admitted ih =>
    obtain ⟨_, there⟩ := Course.of_moves begun run
    exact ih.move there.placed move admitted

/-- From a run that is not running no delivery begins until it is resumed. -/
theorem Course.calls_until_resumed {before start e : Engine} {plan : Job} {first : Nat}
    {moves more : List Move} {new : List Event}
    (course : Course before plan first moves new .stage start)
    (halted : start.state.status ≠ .running) (run : Moves start more e) :
    Withholds start e ∧ e.state.status ≠ .running ∨
      ∃ earlier later resuming, more = earlier ++ .operate .resume :: later ∧
        Moves start earlier resuming ∧ (resuming.operate .resume).1 = true ∧
        Withholds start resuming := by
  induction run with
  | none => exact .inl ⟨.refl start, halted⟩
  | @next more middle move run admitted ih =>
    obtain ⟨withholds, waiting⟩ | ⟨earlier, later, resuming, rfl, before, resumed, none⟩ := ih
    · obtain ⟨_, there⟩ := course.extend run
      have step : Withholds middle (middle.move move) := by
        obtain step | ⟨running, _⟩ := there.placed.calls_move move
        · exact step
        · exact absurd running waiting
      obtain ⟨path, ⟨_, _, _, status⟩, entered⟩ := enters_move there.placed move admitted
      -- Of the statuses that the move may enter only that of a resumption is running.
      obtain rfl | ⟨status', rfl, transition | ⟨_, rfl⟩⟩ := entered
      · exact .inl ⟨withholds.trans step, by rw [status]; exact waiting⟩
      · generalize current : middle.state.status = latest at transition
        cases transition with
        | resumed cause =>
          subst cause
          have resumed : (middle.operate .resume).1 = true := by
            simp [Engine.operate, resume, current]
          exact .inr ⟨more, [], middle, rfl, run, resumed, withholds⟩
        | paused | stopping | cancelled | completed | failed | interrupted =>
          exact .inl ⟨withholds.trans step, by rw [status]; simp⟩
      · exact .inl ⟨withholds.trans step, by rw [status]; simp⟩
    · exact .inr ⟨earlier, later ++ [move], resuming, by simp, before, resumed, none⟩

def IsHalting (e : Engine) : Prop :=
  e.state.status = .cancelling ∨
    (e.state.status = .cancelled ∨ e.state.status = .failed) ∧ e.IsOver

namespace IsHalting
variable {e : Engine}

private theorem finish (cancelling : e.state.status = .cancelling) : e.finish.IsHalting :=
  .inr (by simp [cancelling, IsOver])

private theorem fail (e : Engine) (failure : Failure) : (e.fail failure).IsHalting :=
  .inr (by simp [IsOver])

private theorem interrupted (e : Engine) : e.interrupted.IsHalting := .inr (by simp [IsOver])

private theorem walk (cancelling : e.state.status = .cancelling) (row stop : Nat) :
    (e.walk row stop).IsHalting := by
  rw [Engine.walk]
  split_ifs with inside paused
  · simp [cancelling] at paused
  · exact finish cancelling
  · exact .inl (by simpa using cancelling)

private theorem nextBatch (cancelling : e.state.status = .cancelling) : e.nextBatch.IsHalting := by
  unfold Engine.nextBatch
  rw [if_neg (fun left => left.2 cancelling)]
  exact finish cancelling

private theorem answer (halting : e.IsHalting) (reply : Reply) : (e.answer reply).IsHalting := by
  cases stage : e.stage
  case call row stop contact =>
    obtain cancelling | ⟨_, ended⟩ := halting
    · cases reply with
      | accepted => exact .inl (by simpa [accepted_fields stage] using cancelling)
      | rejected failure =>
        exact .inl (by simpa [rejected_fields stage, RunState.reject] using cancelling)
      | interrupted =>
        simp only [Engine.answer, stage]
        exact interrupted _
    · simp [IsOver, stage] at ended
  all_goals simpa [Engine.answer, stage] using halting

private theorem acknowledge (halting : e.IsHalting) (failure? : Option Failure) :
    (e.acknowledge failure?).IsHalting := by
  cases stage : e.stage <;> cases failure? <;> simp only [Engine.acknowledge, stage]
  case rowNotice.some | batchNotice.some => exact fail _ _
  case finalNotice.none | finalNotice.some =>
    obtain cancelling | ⟨status, _⟩ := halting
    · exact .inl cancelling
    · exact .inr ⟨status, .inr ⟨_, rfl⟩⟩
  case rowNotice.none =>
    obtain cancelling | ⟨_, ended⟩ := halting
    · exact walk cancelling _ _
    · simp [IsOver, stage] at ended
  case batchNotice.none =>
    obtain cancelling | ⟨_, ended⟩ := halting
    · exact .inl cancelling
    · simp [IsOver, stage] at ended
  all_goals exact halting

private theorem proceed (halting : e.IsHalting) : e.proceed.IsHalting := by
  cases stage : e.stage <;> simp only [Engine.proceed, stage]
  case turn =>
    obtain cancelling | ⟨_, ended⟩ := halting
    · exact nextBatch cancelling
    · simp [IsOver, stage] at ended
  case release row stop =>
    split_ifs
    · obtain cancelling | ⟨_, ended⟩ := halting
      · exact walk cancelling _ _
      · simp [IsOver, stage] at ended
    · exact halting
  all_goals exact halting

private theorem interrupt (halting : e.IsHalting) : e.interrupt.IsHalting := by
  cases stage : e.stage <;> simp only [Engine.interrupt, stage]
  case call | turn | release => exact interrupted _
  all_goals exact halting

private theorem operate (halting : e.IsHalting) (action : Action) :
    (e.operate action).2.IsHalting := by
  obtain cancelling | ⟨status, ended⟩ := halting
  · exact .inl (by cases action <;> simp [cancelling, Action.on])
  · refine .inr ⟨?_, by simpa [IsOver] using ended⟩
    obtain status | status := status <;> cases action <;> simp [status, Action.on]

theorem move (halting : e.IsHalting) (move : Move) : (e.move move).IsHalting := by
  cases move with
  | answer reply => exact halting.answer reply
  | acknowledge failure? => exact halting.acknowledge failure?
  | proceed => exact halting.proceed
  | interrupt => exact halting.interrupt
  | operate action => exact halting.operate action
  | save => simpa [Engine.move, IsHalting, IsOver] using halting
  | tick now => exact halting

theorem calls_move (halting : e.IsHalting) (move : Move) : Withholds e (e.move move) := by
  obtain withholds | ⟨_, uncancelled, going, _⟩ := e.calls_move move
  · exact withholds
  · obtain cancelling | ⟨_, isOver⟩ := halting
    · exact absurd cancelling uncancelled
    · exact absurd isOver going

/-- From a run that is halting on no delivery begins, and it is never completed. -/
theorem moves {e' : Engine} {more : List Move} (halting : e.IsHalting) (run : Moves e more e') :
    Withholds e e' ∧ e'.IsHalting := by
  induction run with
  | none => exact ⟨.refl e, halting⟩
  | next move run admitted ih => exact ⟨ih.1.trans (ih.2.calls_move move), ih.2.move move⟩

theorem status (halting : e.IsHalting) :
    e.state.status = .cancelling ∨ e.state.status = .cancelled ∨ e.state.status = .failed :=
  halting.imp id (·.1)

end IsHalting

/-- A delivery begins only in a run that is running. Once a run was paused none begins until it was
resumed. Once it was cancelled none begins at all: the run goes on to its end, which its rows bound,
and is then cancelled or has failed. That nothing begins any more holds of an engine that is being
cancelled in whatever state, also of one in the midst of saving progress. -/
theorem start_restrained (before : Engine) (job : Job) (row : Int) {mapping : Mapping}
    {dropped : List Text} (idle : before.state.status.isActive = false)
    (valid : job.mapping.validate job.file.headers = .ok (mapping, dropped)) {moves : List Move}
    {e : Engine} (reached : Moves (before.start job row).2 moves e) :
    (∀ earlier row delivery later, before.since e = earlier ++ .submitted row delivery :: later →
        (earlier.filterMap Event.status?).getLast? = some .running) ∧
      ((e.operate .pause).1 = true → ∀ more e', Moves (e.operate .pause).2 more e' →
        (e.operate .pause).2.callsSince e' ≠ [] →
        ∃ earlier later resuming, more = earlier ++ .operate .resume :: later ∧
          Moves (e.operate .pause).2 earlier resuming ∧ (resuming.operate .resume).1 = true ∧
          (e.operate .pause).2.callsSince resuming = []) ∧
      ((e.operate .cancel).1 = true → ∀ more e', Moves (e.operate .cancel).2 more e' →
        (e.operate .cancel).2.callsSince e' = [] ∧ e'.state.status ≠ .completed ∧
          more.countP Move.isStep ≤ 6 * job.file.totalRows + 3 ∧
          (e'.Awaits ∨ (e'.state.status = .cancelled ∨ e'.state.status = .failed) ∧
            ∃ outcome, e'.stage = .ended outcome)) ∧
      ∀ c : Engine, c.state.status = .cancelling → ∀ more e', Moves c more e' →
        c.callsSince e' = [] ∧ e'.state.status ≠ .completed := by
  obtain ⟨e₀, begun, started⟩ := start_valid before job row idle valid
  rw [started] at reached
  obtain ⟨new, course⟩ := Course.of_moves begun reached
  have halted {c : Engine} (cancelling : c.state.status = .cancelling) {more : List Move}
      {e' : Engine} (run : Moves c more e') :
      c.callsSince e' = [] ∧ e'.state.status ≠ .completed ∧ e'.IsHalting := by
    obtain ⟨withholds, halting⟩ := IsHalting.moves (.inl cancelling) run
    refine ⟨withholds.callsSince, ?_, halting⟩
    obtain status | status | status := halting.status <;> simp [status]
  refine ⟨?_, ?_, ?_, ?_⟩
  · intro earlier row delivery later split
    exact (Course.guarded begun reached).since split
  · intro paused more e' run calls
    obtain ⟨_, pausing⟩ := course.of_move _ (.operate .pause) rfl
    have still : (e.operate .pause).2.state.status ≠ .running := by
      rw [operate_changes] at paused
      cases status : e.state.status <;> simp_all [Action.on]
    obtain ⟨withholds, _⟩ | ⟨earlier, later, resuming, split, before, resumed, withholds⟩ :=
      pausing.calls_until_resumed still run
    · exact absurd withholds.callsSince calls
    · exact ⟨earlier, later, resuming, split, before, resumed, withholds.callsSince⟩
  · intro cancelled more e' run
    obtain ⟨_, stopping⟩ := course.of_move _ (.operate .cancel) rfl
    have cancelling : (e.operate .cancel).2.state.status = .cancelling := by
      rw [operate_changes] at cancelled
      cases status : e.state.status <;> simp_all [Action.on]
    obtain ⟨none, incomplete, halting⟩ := halted cancelling run
    obtain ⟨_, there⟩ := stopping.extend run
    refine ⟨none, incomplete, ?_, ?_⟩
    · have steps := there.steps_le
      simp only [List.countP_append, planOf] at steps
      omega
    · obtain ⟨outcome, ended⟩ | ⟨paused, _⟩ | awaits := there.awaits
      · have terminal := there.placed.terminal (.inr ⟨outcome, ended⟩)
        refine .inr ⟨?_, outcome, ended⟩
        obtain status | status := halting.status
        · simp [status, Status.isTerminal] at terminal
        · exact status
      · obtain status | status | status := halting.status <;> simp [status] at paused
      · exact .inl awaits
  · intro c cancelling more e' run
    obtain ⟨none, incomplete, _⟩ := halted cancelling run
    exact ⟨none, incomplete⟩

def pairJob : Job :=
  { sampleJob with file := { sampleJob.file with rows := [["ann@x.io"], ["bob@x.io"]] } }

/-- A run of two rows that is cancelled during its first delivery ends cancelled, and delivers no
other row. -/
theorem start_restrained_sample :
    let run := (sample.start pairJob 0).2
    (sample.callsSince run).map Prod.fst = [0] ∧ ∃ e, Moves (run.operate .cancel).2
        [.answer .accepted, .acknowledge none, .acknowledge none] e ∧
      (run.operate .cancel).2.callsSince e = [] ∧ e.state.status = .cancelled := by
  intro run
  let more : List Move := [.answer .accepted, .acknowledge none, .acknowledge none]
  have ended : ((run.operate .cancel).2.after? more).map (·.state.status) = some .cancelled := by
    decide +kernel
  obtain ⟨e, reached, status⟩ := Option.map_eq_some_iff.mp ended
  have stopping :=
    (start_restrained sample pairJob 0 rfl sampleJob_valid (.none : Moves run [] run)).2.2.1
  refine ⟨by decide +kernel, e, reaches_iff.mpr reached, ?_, status⟩
  exact (stopping (by decide +kernel) more e (reaches_iff.mpr reached)).1

end Intake.Engine
