import Intake.Proofs.Run.Cells
import Intake.Proofs.Run.Ending
import Intake.Proofs.Run.Ledger
import Intake.Proofs.Run.Restraint

/-! Batches and pauses leave no trace in what a run comes to. Where nothing cuts a run short, its
deliveries are those of its due rows, and its counts and its error log are those of the verdicts on
them; neither the size of a batch nor a pause stands in that. -/
namespace Intake

def Move.isCalm : Move → Bool
  | answer .interrupted | acknowledge (some _) | interrupt | operate .cancel => false
  | _ => true

def Job.calls (job : Job) (now : Int) (workspace : Text) (start stop : Nat) :
    List (Nat × Delivery) :=
  (job.dueRows start stop).filterMap fun row => (job.deliveryAt? now workspace row).map (row, ·)

theorem Job.Timeless.calls_eq {job : Job} (timeless : job.Timeless) {workspace : Text}
    {start stop : Nat} {calls : List (Nat × Delivery)}
    (rows : calls.map Prod.fst = job.dueRows start stop)
    (each : ∀ call ∈ calls, ∃ now, job.deliveryAt? now workspace call.1 = some call.2) (now : Int) :
    calls = job.calls now workspace start stop := by
  have found : calls.filterMap (fun call => (job.deliveryAt? now workspace call.1).map (call.1, ·))
      = calls.map id := by
    refine List.filterMap_eq_map_iff_forall_eq_some.mpr fun call made => ?_
    obtain ⟨earlier, found⟩ := each call made
    have due := (Job.mem_dueRows.mp (rows ▸ List.mem_map_of_mem made)).2.2
    rw [timeless.deliveryAt? due now earlier, found]
    rfl
  rw [Job.calls, ← rows, List.filterMap_map, Function.comp_def, found, List.map_id]

def verdicts (rule : Nat → Contact → Option Failure) (calls : List (Nat × Delivery)) :
    List (Nat × Reply) :=
  calls.mapIdx fun n call => (call.1, ((rule n call.2.contact).map .rejected).getD .accepted)

namespace Engine

def repliesSince (before after : Engine) : List (Nat × Reply) :=
  (before.since after).filterMap Event.reply?

/-- Nothing has cut a run short, and its deliveries have met with the verdicts of a rule. -/
structure Undisturbed (before : Engine) (job : Job) (row : Int)
    (rule : Nat → Contact → Option Failure) (moves : List Move) (e : Engine) : Prop where
  reached : Moves (before.start job row).2 moves e
  calm : ∀ move ∈ moves, move.isCalm = true
  replies : before.repliesSince e <+: verdicts rule (before.callsSince e)

theorem reply_isMark (event : Event) (replied : event.reply?.isSome) : event.isMark := by
  cases event <;> simp_all [Event.reply?, Event.isMark]

section
variable {before e₀ e : Engine} {plan : Job} {first reach : Nat} {moves : List Move}
  {new : List Event}

theorem Course.repliesSince (course : Course before plan first moves new .stage e) :
    before.repliesSince e = (new.filterMap Event.reply?).reverse :=
  course.filterMap_since reply_isMark

/-- Once a run is over, each of its deliveries has its reply. -/
theorem Tally.replied (tally : Tally before plan first moves new .stage e reach)
    (course : Course before plan first moves new .stage e) (isOver : e.IsOver) :
    (before.repliesSince e).map Prod.fst = (before.callsSince e).map Prod.fst := by
  have settled : Point.stage.inFlight e = [] := by
    obtain stage | ⟨outcome, stage⟩ := isOver <;> simp [Point.inFlight, stage]
  have ends := tally.ends
  rw [settled, List.nil_append] at ends
  rw [course.repliesSince, callsSince, course.filterMap_since call_isMark, List.map_reverse,
    List.map_reverse, ends]

/-- A run that nothing cuts short is never cancelled. -/
theorem uncancelled_of_calm (begun : Begun before plan first e₀)
    (reached : Moves e₀.nextBatch moves e) (calm : ∀ move ∈ moves, move.isCalm = true) :
    e.state.status ≠ .cancelling ∧ e.state.status ≠ .cancelled := by
  induction reached with
  | none =>
    have running : e₀.state.status = .running := by simp [begun.state, reset]
    obtain ⟨path, ⟨_, _, _, status⟩, walked | ⟨_, _, rfl⟩⟩ := enters_nextBatch e₀
    · cases walked with
      | none => simp [status, running]
      | cancelled cancelling => simp [running] at cancelling
      | failed => simp [status]
    · simp [status]
  | @next moves middle move run admitted ih =>
    obtain ⟨still, going⟩ := ih fun move here => calm move (List.mem_append_left _ here)
    have quiet : move.isCalm = true := calm move (by simp)
    obtain ⟨_, there⟩ := Course.of_moves begun run
    obtain ⟨path, ⟨_, _, _, status⟩, rfl | ⟨status', rfl, transition | ⟨_, rfl⟩⟩⟩ :=
      enters_move there.placed move admitted
    · rw [status]
      exact ⟨still, going⟩
    · generalize middle.state.status = current at transition still
      cases transition with
      | paused | resumed | completed | failed => simp [status]
      | cancelled => exact absurd rfl still
      | stopping _ cause =>
        subst cause
        cases quiet
      | interrupted _ cause =>
        obtain rfl | rfl := cause <;> cases quiet
    · simp [status]

theorem isFailure_of_calm {move : Move} (calm : move.isCalm = true) : move.isFailure = false := by
  cases move with
  | acknowledge failure? => cases failure? <;> simp_all [Move.isCalm, Move.isFailure]
  | _ => rfl

theorem isInterruption_of_calm {move : Move} (calm : move.isCalm = true) :
    move.isInterruption = false := by
  cases move with
  | answer reply => cases reply <;> simp_all [Move.isCalm, Move.isInterruption]
  | interrupt => cases calm
  | _ => rfl

/-- A run that nothing cuts short and whose rows have contacts is completed. -/
theorem completed_of_calm (begun : Begun before plan first e₀)
    (reached : Moves e₀.nextBatch moves e) (calm : ∀ move ∈ moves, move.isCalm = true)
    (builds : plan.Builds first plan.file.totalRows) (isOver : e.IsOver) :
    e.state.status = .completed := by
  obtain ⟨_, course⟩ := Course.of_moves begun reached
  obtain ⟨_, uncancelled⟩ := uncancelled_of_calm begun reached calm
  have unfailed : e.state.status ≠ .failed := by
    intro failed
    obtain ⟨row, error, spoiled⟩ :=
      course.spoiled (fun move here => isFailure_of_calm (calm move here)) failed
    obtain ⟨contact, built⟩ := builds row 0 spoiled.low (by exact_mod_cast spoiled.inside)
    cases (spoiled.unbuilt 0).symm.trans built
  have terminal := course.placed.terminal isOver
  cases status : e.state.status <;> simp_all [Status.isTerminal]

end

/-- A run that is held goes on once it is resumed. -/
theorem IsHeld.awaits_resume {e : Engine} (held : e.IsHeld) :
    (e.operate .resume).1 = true ∧ (e.operate .resume).2.Awaits := by
  obtain ⟨paused, row, stop, stage⟩ := held
  refine ⟨by simp [operate, resume, paused], .proceed, rfl, rfl, ?_⟩
  simp [operate, resume, paused, admits, stage, notify]

namespace Undisturbed
variable {before e : Engine} {job : Job} {row : Int} {rule : Nat → Contact → Option Failure}
  {moves : List Move} {mapping : Mapping} {dropped : List Text}

/-- An undisturbed run comes to its end, unless it stays paused. -/
theorem goes_on (run : Undisturbed before job row rule moves e)
    (idle : before.state.status.isActive = false)
    (valid : job.mapping.validate job.file.headers = .ok (mapping, dropped)) :
    moves.countP Move.isStep ≤ 6 * job.file.totalRows + 3 ∧
      (e.stage = .ended .finished ∨
        e.IsHeld ∧ (e.operate .resume).1 = true ∧ (e.operate .resume).2.Awaits ∨ e.Awaits) := by
  obtain ⟨reached, calm, _⟩ := run
  obtain ⟨e₀, begun, started⟩ := start_valid before job row idle valid
  rw [started] at reached
  obtain ⟨_, course⟩ := Course.of_moves begun reached
  have steps := course.steps_le
  refine ⟨by simp only [planOf] at steps; omega, ?_⟩
  obtain ⟨outcome, ended⟩ | held | awaits := course.awaits
  · obtain ⟨_, opened⟩ := Course.of_moves begun .none
    obtain ⟨earlier, failure?, later, _, rfl, _, _, rfl, _⟩ := opened.notice_of_ended
      (isBusy_nextBatch e₀) reached (fun move here => isInterruption_of_calm (calm move here)) ended
    have quiet := calm (.acknowledge failure?) (by simp)
    cases failure? with
    | none => exact .inl ended
    | some failure => cases quiet
  · exact .inr (.inl ⟨held, held.awaits_resume⟩)
  · exact .inr (.inr awaits)

/-- What an undisturbed run comes to. -/
theorem result (run : Undisturbed before job row rule moves e)
    (idle : before.state.status.isActive = false)
    (valid : job.mapping.validate job.file.headers = .ok (mapping, dropped))
    (builds : (planOf job mapping).Builds (resumeRow job.file row) job.file.totalRows)
    (timeless : (planOf job mapping).Timeless) (isOver : e.IsOver) :
    let plan := planOf job mapping
    let calls := plan.calls 0 before.workspace (resumeRow job.file row) job.file.totalRows
    before.callsSince e = calls ∧ Ledger before plan (verdicts rule calls).reverse e ∧
      e.state.row = job.file.totalRows ∧ e.state.status = .completed := by
  intro plan calls
  obtain ⟨reached, calm, replies⟩ := run
  obtain ⟨e₀, begun, started⟩ := start_valid before job row idle valid
  rw [started] at reached
  obtain ⟨new, course⟩ := Course.of_moves begun reached
  obtain ⟨reach, tally⟩ := course.tallied
  have completed := completed_of_calm begun reached calm builds isOver
  obtain rfl : reach = job.file.totalRows := tally.last_row course.placed completed
  have made : before.callsSince e = calls := by
    refine timeless.calls_eq (tally.callsSince_fst course) (fun call here => ?_) 0
    obtain ⟨now, contact, _, built, shape⟩ := tally.mem_callsSince course here
    exact ⟨now, by rw [Job.deliveryAt?, built, shape]⟩
  have verdict : before.repliesSince e = verdicts rule calls := by
    have size := congrArg List.length (tally.replied course isOver)
    rw [made] at replies size
    exact replies.eq_of_length (by simpa [verdicts] using size)
  refine ⟨made, ?_, ?_, completed⟩
  · rw [← verdict, course.repliesSince, List.reverse_reverse]
    exact course.ledger
  · have fits := course.placed.fits
    obtain stage | ⟨outcome, stage⟩ := isOver <;> simp only [Point.Fits, stage] at fits <;>
      exact fits.2 completed

end Undisturbed

/-- What a run comes to depends neither on the size of its batches nor on its pauses. With verdicts
that depend on the place of a delivery and on its contact, two runs of a job that are not cut short,
and whose rows have contacts, the same at all times, come to an end, unless they stay paused, and
then both have made the same deliveries, counted and kept the same of their replies, and completed at
the last row. -/
theorem start_batched (before other : Engine) (job : Job) (row : Int)
    (rule : Nat → Contact → Option Failure) {mapping : Mapping} {dropped : List Text}
    (idle : before.state.status.isActive = false) (idle' : other.state.status.isActive = false)
    (workspace : other.workspace = before.workspace)
    (capacity : other.state.capacity = before.state.capacity)
    (valid : job.mapping.validate job.file.headers = .ok (mapping, dropped))
    (builds : (planOf job mapping).Builds (resumeRow job.file row) job.file.totalRows)
    (timeless : (planOf job mapping).Timeless) :
    (∀ moves e, Undisturbed before job row rule moves e →
        moves.countP Move.isStep ≤ 6 * job.file.totalRows + 3 ∧
          (e.stage = .ended .finished ∨
            e.IsHeld ∧ (e.operate .resume).1 = true ∧ (e.operate .resume).2.Awaits ∨ e.Awaits)) ∧
      ∀ moves e moves' e', Undisturbed before job row rule moves e →
        Undisturbed other job row rule moves' e' → e.IsOver → e'.IsOver →
        other.callsSince e' = before.callsSince e ∧ e'.state.success = e.state.success ∧
          e'.state.failure = e.state.failure ∧ e'.state.errors = e.state.errors ∧
          e.state.row = job.file.totalRows ∧ e'.state.row = job.file.totalRows ∧
          e.state.status = .completed ∧ e'.state.status = .completed := by
  refine ⟨fun moves e run => run.goes_on idle valid,
    fun moves e moves' e' run run' isOver isOver' => ?_⟩
  obtain ⟨calls, ledger, last, completed⟩ := run.result idle valid builds timeless isOver
  obtain ⟨calls', ledger', last', completed'⟩ := run'.result idle' valid builds timeless isOver'
  rw [workspace] at calls' ledger'
  refine ⟨calls'.trans calls.symm, ?_, ?_, ?_, last, last', completed, completed'⟩
  · rw [ledger'.success, ledger.success]
  · rw [ledger'.failure, ledger.failure]
  · rw [ledger'.errors, ledger.errors, ledger'.capacity, ledger.capacity, capacity]

def secondRejected : Nat → Contact → Option Failure
  | 1, _ => some ⟨"RowSubmissionError", "mailbox full"⟩
  | _, _ => none

theorem pairJob_builds : (planOf pairJob pairJob.mapping).Builds 0 2 := by
  intro row now _ passed
  have built : ∀ row : Fin 2,
      ((planOf pairJob pairJob.mapping).contactAt 0 row).toOption.isSome := by
    decide +kernel
  have here := built ⟨row, by omega⟩
  cases read : (planOf pairJob pairJob.mapping).contactAt 0 row with
  | ok contact => exact Contact.exists_build read _
  | error error => simp [read, Except.toOption] at here

theorem pairJob_timeless : (planOf pairJob pairJob.mapping).Timeless :=
  Job.timeless_of_dateless (by decide +kernel)

/-- Runs can be tried: whether moves lead to an end without disturbance. -/
theorem undisturbed_of_after? {before : Engine} {job : Job} {row : Int}
    {rule : Nat → Contact → Option Failure} {moves : List Move}
    (calm : ∀ move ∈ moves, move.isCalm = true)
    (ended : ((before.start job row).2.after? moves).any (fun e =>
      (before.repliesSince e).isPrefixOf (verdicts rule (before.callsSince e)) &&
        e.stage.outcome? == some .finished) = true) :
    ∃ e, Undisturbed before job row rule moves e ∧ e.IsOver := by
  obtain ⟨e, reached, met⟩ := Option.any_eq_true _ _ |>.mp ended
  simp only [Bool.and_eq_true, beq_iff_eq, List.isPrefixOf_iff_prefix] at met
  obtain ⟨replies, outcome⟩ := met
  exact ⟨e, ⟨reaches_iff.mpr reached, calm, replies⟩, .inr ⟨_, Stage.outcome?_eq_some.mp outcome⟩⟩

/-- A run of two rows in one batch comes to the same as one in two batches that is paused between
them. -/
theorem start_batched_sample :
    let other := { sample with batchSize := 1, batchSize_pos := Nat.one_pos }
    ∃ moves e moves' e', Undisturbed sample pairJob 0 secondRejected moves e ∧
      Undisturbed other pairJob 0 secondRejected moves' e' ∧
      (.operate .pause ∈ moves' ∧ .operate .resume ∈ moves') ∧
      other.callsSince e' = sample.callsSince e ∧ e'.state.errors = e.state.errors ∧
      e.state.status = .completed ∧ e'.state.status = .completed := by
  intro other
  let rejection : Move := .answer (.rejected ⟨"RowSubmissionError", "mailbox full"⟩)
  let moves : List Move := [.answer .accepted, .acknowledge none, rejection, .acknowledge none,
    .acknowledge none, .proceed, .acknowledge none]
  let moves' : List Move := [.operate .pause, .answer .accepted, .acknowledge none,
    .acknowledge none, .proceed, .operate .resume, .proceed, rejection, .acknowledge none,
    .acknowledge none, .proceed, .acknowledge none]
  obtain ⟨e, run, isOver⟩ : ∃ e, Undisturbed sample pairJob 0 secondRejected moves e ∧ e.IsOver :=
    undisturbed_of_after? (by decide) (by decide +kernel)
  obtain ⟨e', run', isOver'⟩ :
      ∃ e', Undisturbed other pairJob 0 secondRejected moves' e' ∧ e'.IsOver :=
    undisturbed_of_after? (by decide) (by decide +kernel)
  obtain ⟨calls, _, _, errors, _, _, completed, completed'⟩ := (start_batched sample other pairJob 0
    secondRejected rfl rfl rfl rfl sampleJob_valid pairJob_builds pairJob_timeless).2 moves e moves'
    e' run run' isOver isOver'
  exact ⟨moves, e, moves', e', run, run', by decide, calls, errors, completed, completed'⟩

def currentJob : Job :=
  { file := ⟨"people.csv", ["email", "seen"], [["ann@x.io", ""], ["bob@x.io", "now"]], 15⟩
    mapping := [(Attribute.emailKey, "email"), ("custom_datetime_1", "seen")]
    lists := []
    calendar := .own }

/-- A delivery that is interrupted from outside shows the size of the batches, as the run stands at
the end of the last whole one. A date that says the current time shows a pause before it. -/
theorem batches_and_pauses_shown :
    let other := { sample with batchSize := 1, batchSize_pos := Nat.one_pos }
    let accept : List Move := [.answer .accepted, .acknowledge none]
    let finish : List Move := [.acknowledge none, .proceed, .acknowledge none]
    ((sample.start pairJob 0).2.after? (accept ++ [.answer .interrupted])).map
        (fun e => (e.stage.outcome?, e.state.row)) = some (some .interrupted, 0) ∧
      ((other.start pairJob 0).2.after?
          (accept ++ [.acknowledge none, .proceed, .answer .interrupted])).map
        (fun e => (e.stage.outcome?, e.state.row)) = some (some .interrupted, 1) ∧
      ∃ e e', Undisturbed sample currentJob 0 (fun _ _ => none) (accept ++ accept ++ finish) e ∧
        e.IsOver ∧ Undisturbed sample currentJob 0 (fun _ _ => none)
          (.operate .pause :: accept ++ [.tick 5000, .operate .resume, .proceed] ++ accept ++ finish)
          e' ∧
        e'.IsOver ∧ sample.callsSince e' ≠ sample.callsSince e := by
  intro other accept finish
  let texts (e : Engine) : List Text :=
    (sample.callsSince e).flatMap fun call => call.2.contact.texts
  refine ⟨by decide +kernel, by decide +kernel, ?_⟩
  obtain ⟨e, run, isOver⟩ : ∃ e, Undisturbed sample currentJob 0 (fun _ _ => none)
      (accept ++ accept ++ finish) e ∧ e.IsOver :=
    undisturbed_of_after? (by decide) (by decide +kernel)
  obtain ⟨e', run', isOver'⟩ : ∃ e', Undisturbed sample currentJob 0 (fun _ _ => none)
      (.operate .pause :: accept ++ [.tick 5000, .operate .resume, .proceed] ++ accept ++ finish) e' ∧
        e'.IsOver :=
    undisturbed_of_after? (by decide) (by decide +kernel)
  refine ⟨e, e', run, isOver, run', isOver', fun same => ?_⟩
  let dated (date : Text) : List Text := ["ann@x.io", "bob@x.io", date]
  have early : some (texts e) = some (dated "1970-01-01T00:00:00+00:00") := by
    rw [← Option.map_some, ← reaches_iff.mp run.reached]
    decide +kernel
  have late : some (texts e') = some (dated "1970-01-01T00:00:05+00:00") := by
    rw [← Option.map_some, ← reaches_iff.mp run'.reached]
    decide +kernel
  have equal : texts e' = texts e := by simp only [texts, same]
  rw [equal, early] at late
  revert late
  decide +kernel

end Engine
end Intake
