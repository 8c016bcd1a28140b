import Intake.Proofs.Run.Deliveries

/-! The statuses that a run enters. Each of its moves enters one status at most, by a transition
that has its cause; the one transition without a place among them is that of a paused run that has
no row left to begin. -/
namespace Intake

namespace Engine

def Enters (e e' : Engine) (path : List Status) : Prop :=
  ∃ happened, e'.journal = happened ++ e.journal ∧
    (happened.filterMap Event.status?).reverse = path ∧
    e'.state.status = path.getLast?.getD e.state.status

namespace Enters
variable {e e' e'' : Engine} {path more : List Status}

theorem statuses (enters : Enters e e' path) : e.statusesSince e' = path := by
  obtain ⟨happened, journal, same, _⟩ := enters
  rw [statusesSince, since_of_append journal, List.filterMap_reverse, same]

theorem trans (first : Enters e e' path) (second : Enters e' e'' more) :
    Enters e e'' (path ++ more) := by
  obtain ⟨happened, journal, rfl, status⟩ := first
  obtain ⟨later, journal', rfl, status'⟩ := second
  refine ⟨later ++ happened, by rw [journal', journal, List.append_assoc], by simp, ?_⟩
  rw [status', status, List.getLast?_append]
  cases List.getLast? _ <;> rfl

theorem from_journal {status : Status} (enters : Enters e e' [status])
    (journal : e.journal = e''.journal) : Enters e'' e' [status] := by
  obtain ⟨happened, grown, same, last⟩ := enters
  exact ⟨happened, by rw [grown, journal], same, last⟩

theorem quiet (happened : List Event) (journal : e'.journal = happened ++ e.journal)
    (silent : happened.filterMap Event.status? = []) (status : e'.state.status = e.state.status) :
    Enters e e' [] :=
  ⟨happened, journal, by rw [silent]; rfl, status⟩

end Enters

theorem enters_enter (e : Engine) (status : Status) : Enters e (e.enter status) [status] :=
  ⟨[_], rfl, rfl, rfl⟩

theorem enters_save (e : Engine) : Enters e e.save [] := by
  cases taken : e.snapshot? with
  | none =>
    simp only [save, saveProgress, taken]
    exact .quiet [] rfl rfl rfl
  | some checkpoint =>
    simp only [save, saveProgress, taken]
    generalize e.store.save e.workspace checkpoint.fileName checkpoint = result
    exact .quiet [.stored result.2.1, .handed checkpoint] rfl rfl rfl

theorem enters_noteAll (e : Engine) (discards : List Discard) :
    Enters e (e.noteAll (discards.map .discarded)) [] := by
  refine .quiet (discards.map .discarded).reverse rfl ?_ rfl
  simp [Event.status?]

theorem enters_finish (e : Engine) :
    Enters e e.finish [if e.state.status = .cancelling then .cancelled else .completed] :=
  ⟨[_, _], rfl, rfl, rfl⟩

theorem enters_fail (e : Engine) (failure : Failure) : Enters e (e.fail failure) [.failed] := by
  let failing := { e with state := { e.state with fatal := some failure.text } }
  have given : Enters e failing [] := .quiet [] rfl rfl rfl
  have saved := (given.trans (enters_enter failing .failed)).trans (enters_save _)
  have ended : Enters (failing.enter .failed).save (e.fail failure) [] :=
    .quiet [_] rfl rfl rfl
  exact saved.trans ended

theorem enters_interrupted (e : Engine) : Enters e e.interrupted [.cancelled] := by
  have ended : Enters e.save e.interrupted [.cancelled] := ⟨[_, _], rfl, rfl, rfl⟩
  exact (enters_save e).trans ended

theorem enters_cutOff (e : Engine) (row : Nat) :
    Enters e (e.note (.replied row .interrupted)).interrupted [.cancelled] := by
  have noted : Enters e (e.note (.replied row .interrupted)) [] := .quiet [_] rfl rfl rfl
  exact noted.trans (enters_interrupted _)

theorem enters_closeBatch (e : Engine) (stop : Nat) : Enters e (e.closeBatch stop) [] := by
  let closed := { e with state := { e.state with row := (stop : Int) } }
  have moved : Enters e closed [] := .quiet [] rfl rfl rfl
  have ended : Enters closed.save (e.closeBatch stop) [] := .quiet [_] rfl rfl rfl
  exact (moved.trans (enters_save closed)).trans ended

theorem enters_operate (e : Engine) (action : Action) :
    Enters e (e.operate action).2
      (if (e.operate action).1 = true then [action.on e.state.status] else []) := by
  have ignored : Enters e (e.ignore action).2 [] := .quiet [_] rfl rfl rfl
  cases action with
  | pause =>
    by_cases running : e.state.status = .running
    · let paused := { e.setStatus .paused with released := false }
      have ended : Enters paused.save (e.operate .pause).2 [.paused] := by
        simp only [operate, pause, if_pos running]
        exact ⟨[_, _], rfl, by simp [List.filterMap_cons, Event.status?, setStatus],
          by simp [notify, setStatus]⟩
      have all : Enters e (e.operate .pause).2 [.paused] :=
        ((enters_save paused).trans ended).from_journal rfl
      simpa [operate, pause, running, Action.on] using all
    · simpa [operate, pause, running, ignore] using ignored
  | resume =>
    by_cases paused : e.state.status = .paused
    · have ended : Enters e (e.operate .resume).2 [.running] := by
        simp only [operate, resume, if_pos paused]
        exact ⟨[_, _], rfl, rfl, rfl⟩
      simpa [operate, resume, paused, Action.on] using ended
    · simpa [operate, resume, paused, ignore] using ignored
  | cancel =>
    by_cases going : e.state.status = .running ∨ e.state.status = .paused
    · have ended : Enters e.save (e.operate .cancel).2 [.cancelling] := by
        simp only [operate, cancel, if_pos going]
        exact ⟨[_, _], rfl, rfl, rfl⟩
      have all := (enters_save e).trans ended
      have target : Action.cancel.on e.state.status = .cancelling := by
        obtain same | same := going <;> simp [same, Action.on]
      simpa [operate, cancel, going, target] using all
    · simpa [operate, cancel, going, ignore] using ignored

inductive WalkEnters (e : Engine) : List Status → Prop
  | none : WalkEnters e []
  | cancelled (cancelling : e.state.status = .cancelling) : WalkEnters e [.cancelled]
  | failed (unpaused : e.state.status ≠ .paused) (going : e.state.status ≠ .cancelling) (row : Nat)
      (error : OversizedInteger) (raised : (e.contactAt row).2 = .error error) :
      WalkEnters e [.failed]

theorem enters_walk (e : Engine) (row stop : Nat) :
    ∃ path, Enters e (e.walk row stop) path ∧ WalkEnters e path := by
  fun_induction walk e row stop with
  | case1 e row inside paused => exact ⟨[], .quiet [] rfl rfl rfl, .none⟩
  | case2 e row inside unpaused cancelling =>
    have ended := enters_finish e
    rw [if_pos cancelling] at ended
    exact ⟨_, ended, .cancelled cancelling⟩
  | case3 e row inside unpaused going discards noted error =>
    rename_i read
    have failed := (enters_noteAll e discards).trans (enters_fail noted ⟨"ValueError", error.message⟩)
    exact ⟨_, failed, .failed unpaused going row error (by rw [read])⟩
  | case4 e row inside unpaused going discards noted contact due =>
    have submitted : Enters noted (noted.submit row stop contact) [] :=
      .quiet [_] rfl rfl rfl
    exact ⟨_, (enters_noteAll e discards).trans submitted, .none⟩
  | case5 e row inside unpaused going discards noted contact blank read =>
    rename_i ih
    obtain ⟨path, enters, walked⟩ := ih
    refine ⟨path, (enters_noteAll e discards).trans enters, ?_⟩
    cases walked with
    | none => exact .none
    | cancelled cancelling => exact absurd cancelling going
    | failed _ _ row error raised => exact .failed unpaused going row error raised
  | case6 e row outside => exact ⟨[], enters_closeBatch e stop, .none⟩

/-- Beginning a batch enters what its rows do; where no row is left, the run ends. -/
theorem enters_nextBatch (e : Engine) :
    ∃ path, Enters e e.nextBatch path ∧ (WalkEnters e path ∨
      ¬ e.state.row < e.state.totalRows ∧ e.state.status ≠ .cancelling ∧ path = [.completed]) := by
  unfold nextBatch
  by_cases left : e.state.row < e.state.totalRows ∧ e.state.status ≠ .cancelling
  · rw [if_pos left]
    let start := e.state.row.toNat
    let stop := min (start + e.batchSize) e.state.totalRows.toNat
    let counted := { e with state := { e.state with batch := (start / e.batchSize + 1 : Nat) } }
    let opened := counted.note (.batchBegun counted.state stop)
    have opening : Enters e opened [] := .quiet [_] rfl rfl rfl
    obtain ⟨path, enters, walked⟩ := enters_walk opened start stop
    refine ⟨path, opening.trans enters, .inl ?_⟩
    cases walked with
    | none => exact .none
    | cancelled cancelling => exact .cancelled cancelling
    | failed unpaused going row error raised => exact .failed unpaused going row error raised
  · rw [if_neg left]
    by_cases cancelling : e.state.status = .cancelling
    · have ended := enters_finish e
      rw [if_pos cancelling] at ended
      exact ⟨_, ended, .inl (.cancelled cancelling)⟩
    · have ended := enters_finish e
      rw [if_neg cancelling] at ended
      exact ⟨_, ended, .inr ⟨fun more => left ⟨more, cancelling⟩, cancelling, rfl⟩⟩

end Engine

/-- The transitions of the status of a run, each with the moves that cause it. A row of the job
raises when its contact cannot be built. -/
inductive Transition (plan : Job) (move : Move) : Status → Status → Prop
  | paused (cause : move = .operate .pause) : Transition plan move .running .paused
  | resumed (cause : move = .operate .resume) : Transition plan move .paused .running
  | stopping {status : Status} (going : status = .running ∨ status = .paused)
      (cause : move = .operate .cancel) : Transition plan move status .cancelling
  | cancelled : Transition plan move .cancelling .cancelled
  | completed : Transition plan move .running .completed
  | failed {status : Status} (active : status.isActive = true)
      (cause : (∃ failure, move = .acknowledge (some failure)) ∨
        ∃ row error, ∀ now, plan.contactAt now row = .error error) : Transition plan move status .failed
  | interrupted {status : Status} (active : status.isActive = true)
      (cause : move = .answer .interrupted ∨ move = .interrupt) :
      Transition plan move status .cancelled

namespace Engine

def Slips (e : Engine) (move : Move) : Prop :=
  e.state.status = .paused ∧ move = .proceed ∧ e.stage = .turn ∧ e.state.row = e.state.totalRows

def MoveEnters (plan : Job) (e : Engine) (move : Move) (path : List Status) : Prop :=
  path = [] ∨ ∃ status, path = [status] ∧
    (Transition plan move e.state.status status ∨ e.Slips move ∧ status = .completed)

private theorem moveEnters_walk {plan : Job} {e : Engine} {move : Move} {path : List Status}
    (job : e.job? = some plan) (active : e.state.status.isActive = true)
    (walked : WalkEnters e path) : MoveEnters plan e move path := by
  cases walked with
  | none => exact .inl rfl
  | cancelled cancelling =>
    rw [MoveEnters, cancelling]
    exact .inr ⟨_, rfl, .inl .cancelled⟩
  | failed unpaused going row error raised =>
    rw [contactAt_job job] at raised
    exact .inr ⟨_, rfl,
      .inl (.failed active (.inr ⟨row, error, fun now => Job.contactAt_error_iff.mp raised⟩))⟩

/-- A move of a run enters one status at most, by a transition or by the slip. -/
theorem enters_move {before e : Engine} {plan : Job} {first : Nat}
    (placed : Placed before plan first .stage e) (move : Move) (admitted : e.admits move = true) :
    ∃ path, Enters e (e.move move) path ∧ MoveEnters plan e move path := by
  obtain ⟨_, job, total, low, high, fits⟩ := placed
  cases move with
  | answer reply =>
    cases stage : e.stage <;> simp [admits, stage] at admitted
    simp only [Point.Fits, stage] at fits
    simp only [Engine.move, answer, stage]
    cases reply with
    | accepted => exact ⟨[], .quiet [_, _] rfl rfl rfl, .inl rfl⟩
    | rejected failure => exact ⟨[], .quiet [_, _, _] rfl rfl rfl, .inl rfl⟩
    | interrupted =>
      exact ⟨_, enters_cutOff e _, .inr ⟨_, rfl, .inl (.interrupted fits.1 (.inl rfl))⟩⟩
  | acknowledge failure? =>
    cases stage : e.stage <;> simp [admits, stage] at admitted <;>
      simp only [Point.Fits, stage] at fits <;> cases failure? <;>
      simp only [Engine.move, acknowledge, stage]
    · obtain ⟨path, enters, walked⟩ := enters_walk e _ _
      exact ⟨path, enters, moveEnters_walk job fits.1 walked⟩
    · exact ⟨_, enters_fail e _, .inr ⟨_, rfl, .inl (.failed fits.1 (.inl ⟨_, rfl⟩))⟩⟩
    · exact ⟨[], .quiet [] rfl rfl rfl, .inl rfl⟩
    · exact ⟨_, enters_fail e _, .inr ⟨_, rfl, .inl (.failed fits (.inl ⟨_, rfl⟩))⟩⟩
    · exact ⟨[], .quiet [_] rfl rfl rfl, .inl rfl⟩
    · exact ⟨[], .quiet [_] rfl rfl rfl, .inl rfl⟩
  | proceed =>
    cases stage : e.stage <;> simp [admits, stage] at admitted <;>
      simp only [Point.Fits, stage] at fits <;> simp only [Engine.move, proceed, stage]
    · obtain ⟨path, enters, walked | ⟨ending, going, rfl⟩⟩ := enters_nextBatch e
      · exact ⟨path, enters, moveEnters_walk job fits walked⟩
      · refine ⟨_, enters, .inr ⟨_, rfl, ?_⟩⟩
        cases status : e.state.status <;> simp [status, Status.isActive] at fits going
        · exact .inl .completed
        · exact .inr ⟨⟨status, rfl, stage, by omega⟩, rfl⟩
    · simp only [admitted, if_true]
      obtain ⟨path, enters, walked⟩ := enters_walk e _ _
      exact ⟨path, enters, moveEnters_walk job fits.1 walked⟩
  | interrupt =>
    cases stage : e.stage <;> simp [admits, stage] at admitted <;>
      simp only [Point.Fits, stage] at fits <;> simp only [Engine.move, interrupt, stage]
    · exact ⟨_, enters_cutOff e _, .inr ⟨_, rfl, .inl (.interrupted fits.1 (.inr rfl))⟩⟩
    · exact ⟨_, enters_interrupted e, .inr ⟨_, rfl, .inl (.interrupted fits (.inr rfl))⟩⟩
    · exact ⟨_, enters_interrupted e, .inr ⟨_, rfl, .inl (.interrupted fits.1 (.inr rfl))⟩⟩
  | operate action =>
    refine ⟨_, enters_operate e action, ?_⟩
    split_ifs with changed
    · refine .inr ⟨_, rfl, .inl ?_⟩
      rw [operate_changes] at changed
      cases action <;> cases status : e.state.status <;> simp [status, Action.on] at changed ⊢
      · exact .paused rfl
      · exact .resumed rfl
      · exact .stopping (.inl rfl) rfl
      · exact .stopping (.inr rfl) rfl
    · exact .inl rfl
  | save => exact ⟨[], enters_save e, .inl rfl⟩
  | tick now => exact ⟨[], .quiet [] rfl rfl rfl, .inl rfl⟩

def nextRow (e : Engine) : Int :=
  match e.stage with
  | .call current .. | .rowNotice current _ => current + 1
  | .release current _ => current
  | _ => e.state.row

private theorem walk_paused {e : Engine} {row stop : Nat} (paused : e.state.status = .paused) :
    e.walk row stop
      = if row < stop then { e with stage := .release row stop } else e.closeBatch stop := by
  rw [walk]
  simp [paused]

private theorem nextRow_walk {e : Engine} {row stop : Nat} (paused : e.state.status = .paused)
    (within : row ≤ stop) : (e.walk row stop).nextRow = row := by
  rw [walk_paused paused]
  split_ifs with inside
  · rfl
  · have same : stop = row := by omega
    simp [nextRow, same]

private theorem nextRow_move {before e : Engine} {plan : Job} {first : Nat}
    (placed : Placed before plan first .stage e) (paused : e.state.status = .paused) (move : Move)
    (admitted : e.admits move = true) (still : (e.move move).state.status = .paused) :
    (e.move move).nextRow = e.nextRow := by
  obtain ⟨_, job, total, low, high, fits⟩ := placed
  cases move with
  | answer reply =>
    cases stage : e.stage <;> simp [admits, stage] at admitted
    cases reply with
    | accepted => simp [Engine.move, nextRow, stage, accepted_fields stage]
    | rejected failure => simp [Engine.move, nextRow, stage, rejected_fields stage]
    | interrupted => simp [Engine.move, answer, stage] at still
  | acknowledge failure? =>
    cases stage : e.stage <;> simp [admits, stage] at admitted <;>
      simp only [Point.Fits, stage] at fits <;> cases failure? <;>
      simp only [Engine.move, acknowledge, stage] at still ⊢
    · rw [nextRow_walk paused (by omega)]
      simp [nextRow, stage]
    · simp at still
    · simp [nextRow, stage]
    · simp at still
    · simp [paused, Status.isTerminal] at fits
    · simp [paused, Status.isTerminal] at fits
  | proceed =>
    cases stage : e.stage <;> simp [admits, stage] at admitted <;>
      simp only [Point.Fits, stage] at fits <;> simp only [Engine.move, proceed, stage] at still ⊢
    · unfold nextBatch at still ⊢
      by_cases left : e.state.row < e.state.totalRows ∧ e.state.status ≠ .cancelling
      · rw [if_pos left]
        simp only
        rw [nextRow_walk (by simpa using paused) (by omega)]
        simp [nextRow, stage]
        omega
      · rw [if_neg left] at still
        simp [paused] at still
    · simp only [admitted, if_true]
      rw [nextRow_walk paused (by omega)]
      simp [nextRow, stage]
  | interrupt =>
    cases stage : e.stage <;> simp [admits, stage] at admitted <;>
      simp [Engine.move, interrupt, stage] at still
  | operate action => simp [Engine.move, nextRow]
  | save => simp [Engine.move, nextRow]
  | tick now => rfl

private inductive Pausing (paused e : Engine) (path : List Status) : Prop
  | resumed (resumed : .running ∈ path)
  | waits (still : e.state.status = .paused) (row : e.nextRow = paused.nextRow)
  | stopped (status : e.state.status = .cancelling ∨ e.state.status = .cancelled ∨
      e.state.status = .failed)
  | completed (status : e.state.status = .completed)
      (last : paused.nextRow = paused.state.totalRows)

private theorem Pausing.step {before start e : Engine} {plan : Job} {first : Nat}
    {path : List Status} (pausing : Pausing start e path)
    (placed : Placed before plan first .stage e)
    (same : e.state.totalRows = start.state.totalRows) (move : Move)
    (admitted : e.admits move = true) :
    ∃ more, Enters e (e.move move) more ∧ Pausing start (e.move move) (path ++ more) := by
  obtain ⟨more, enters, entered⟩ := enters_move placed move admitted
  obtain ⟨_, _, _, reached⟩ := id enters
  refine ⟨more, enters, ?_⟩
  obtain resumed | here := Decidable.em (.running ∈ path)
  · exact .resumed (List.mem_append_left _ resumed)
  obtain rfl | ⟨status, rfl, transition | ⟨⟨paused, _, turn, last⟩, rfl⟩⟩ := entered
  · -- the status stays, and a paused run stays before its row
    cases pausing with
    | resumed resumed => exact absurd resumed here
    | waits still row =>
      have still' := reached.trans still
      exact .waits still' ((nextRow_move placed still move admitted still').trans row)
    | stopped stopped => exact .stopped (by simpa [reached] using stopped)
    | completed completed last => exact .completed (by simpa [reached] using completed) last
  · generalize current : e.state.status = before at transition
    cases transition with
    | resumed cause => exact .resumed (by simp)
    | stopping going cause => exact .stopped (.inl reached)
    | cancelled => exact .stopped (.inr (.inl reached))
    | failed active cause => exact .stopped (.inr (.inr reached))
    | interrupted active cause => exact .stopped (.inr (.inl reached))
    | paused cause | completed =>
      -- a run that was not resumed is not running
      cases pausing <;> simp_all
  · cases pausing with
    | resumed resumed => exact absurd resumed here
    | waits still row => exact .completed reached (by rw [← row, ← same, ← last]; simp [nextRow, turn])
    | stopped stopped => simp [paused] at stopped
    | completed completed _ => simp [paused] at completed

/-- A run that was paused is completed without having gone on only if no row was left. -/
private theorem pausing_moves {before start e : Engine} {plan : Job} {first : Nat}
    {moves more : List Move} {new : List Event}
    (course : Course before plan first moves new .stage start)
    (paused : start.state.status = .paused) (run : Moves start more e) :
    (∃ moves new, Course before plan first moves new .stage e) ∧
      ∃ path, Enters start e path ∧ Pausing start e path := by
  induction run with
  | none => exact ⟨⟨moves, new, course⟩, [], .quiet [] rfl rfl rfl, .waits paused rfl⟩
  | next move run admitted ih =>
    obtain ⟨⟨_, _, there⟩, path, enters, pausing⟩ := ih
    obtain ⟨_, next⟩ := there.of_move _ move admitted
    have same := there.placed.total.trans course.placed.total.symm
    obtain ⟨more, entered, goes⟩ := pausing.step there.placed same move admitted
    exact ⟨⟨_, _, next⟩, _, enters.trans entered, goes⟩

private def Completes (e : Engine) : Prop :=
  ∃ more e' path, Moves e more e' ∧ Enters e e' path ∧ .running ∉ path ∧
    e'.state.status = .completed

private theorem Completes.step {e : Engine} (move : Move) (admitted : e.admits move = true)
    (enters : Enters e (e.move move) []) (rest : Completes (e.move move)) : Completes e := by
  obtain ⟨more, e', path, run, entered, unresumed, completed⟩ := rest
  refine ⟨move :: more, e', path, ?_, enters.trans entered, unresumed, completed⟩
  rw [Moves, reaches_iff] at run ⊢
  simpa [stateAfter?, admitted] using run

private theorem completes_turn {e : Engine} (turn : e.stage = .turn)
    (paused : e.state.status = .paused) (last : e.state.row = e.state.totalRows) :
    Completes e := by
  have admitted : e.admits .proceed = true := by simp [admits, turn]
  have ended : e.move .proceed = e.finish := by
    simp [Engine.move, proceed, turn, nextBatch, last]
  have enters := enters_finish e
  rw [← ended, if_neg (by simp [paused])] at enters
  refine ⟨_, _, _, .next .proceed .none admitted, enters, by simp, ?_⟩
  simp [ended, paused]

private theorem completes_batchNotice {e : Engine} (noticed : e.stage = .batchNotice)
    (paused : e.state.status = .paused) (last : e.state.row = e.state.totalRows) :
    Completes e := by
  have turn : e.move (.acknowledge none) = { e with stage := .turn } := by
    simp [Engine.move, acknowledge, noticed]
  refine .step (.acknowledge none) (by simp [admits, noticed]) ?_ ?_
  · rw [turn]
    exact .quiet [] rfl rfl rfl
  · rw [turn]
    exact completes_turn rfl paused last

private theorem completes_rowNotice {e : Engine} {row stop : Nat}
    (noticed : e.stage = .rowNotice row stop) (paused : e.state.status = .paused)
    (inside : row < stop) (within : stop ≤ e.state.totalRows)
    (last : (row : Int) + 1 = e.state.totalRows) : Completes e := by
  have closed : e.move (.acknowledge none) = e.closeBatch stop := by
    simp only [Engine.move, acknowledge, noticed, walk_paused paused]
    rw [if_neg (by omega)]
  refine .step (.acknowledge none) (by simp [admits, noticed]) ?_ ?_
  · rw [closed]
    exact enters_closeBatch e stop
  · rw [closed]
    refine completes_batchNotice (by simp) (by simpa using paused) ?_
    simp
    omega

private theorem completes_last {before e : Engine} {plan : Job} {first : Nat}
    (placed : Placed before plan first .stage e) (paused : e.state.status = .paused)
    (last : e.nextRow = e.state.totalRows) : Completes e := by
  obtain ⟨_, _, total, low, high, fits⟩ := placed
  cases stage : e.stage with
  | idle => simp [Point.Fits, stage] at fits
  | call current stop contact =>
    simp only [Point.Fits, stage, nextRow] at fits last
    obtain ⟨_, _, inside, within, _⟩ := fits
    obtain ⟨_, _, _, _, state, _, noticed, _⟩ := accepted_fields stage
    refine .step (.answer .accepted) (by simp [admits, stage]) ?_ ?_
    · simp only [Engine.move, answer, stage]
      exact .quiet [_, _] rfl rfl rfl
    · exact completes_rowNotice noticed (by simpa [Engine.move, state] using paused) inside
        (by simp [Engine.move, state]; omega) (by simpa [Engine.move, state] using last)
  | rowNotice current stop =>
    simp only [Point.Fits, stage, nextRow] at fits last
    obtain ⟨_, _, inside, within⟩ := fits
    exact completes_rowNotice stage paused inside (by omega) last
  | batchNotice =>
    simp only [nextRow, stage] at last
    exact completes_batchNotice stage paused last
  | turn =>
    simp only [nextRow, stage] at last
    exact completes_turn stage paused last
  | release current stop =>
    simp only [Point.Fits, stage, nextRow] at fits last
    omega
  | finalNotice => simp [Point.Fits, stage, paused, Status.isTerminal] at fits
  | ended outcome => simp [Point.Fits, stage, paused, Status.isTerminal] at fits

theorem enters_begun {before e₀ : Engine} {plan : Job} {first : Nat}
    (begun : Begun before plan first e₀) : Enters before e₀ [.running] := by
  obtain ⟨happened, grown⟩ := begun.kept
  have entered := begun.statuses
  rw [← grown, List.filterMap_append] at entered
  have same : happened.filterMap Event.status? = [.running] :=
    List.append_cancel_right entered
  exact ⟨happened, grown.symm, by rw [same]; rfl, by simp [begun.state, reset]⟩

private theorem statuses_of_invalid {before : Engine} {job : Job} {error : MappingError}
    (idle : before.state.status.isActive = false)
    (invalid : job.mapping.validate job.file.headers = .error error) (row : Int) :
    (before.start job row).1 = .error (.mapping error) ∧
      (before.start job row).2.state.status = .idle ∧
      before.statusesSince (before.start job row).2 = [] := by
  have quiet : before.start job row
      = (.error (.mapping error), if before.state.status.isTerminal then before.setStatus .idle
        else before) := by
    simp [start, idle, invalid]
  rw [quiet]
  refine ⟨rfl, ?_, ?_⟩
  · cases status : before.state.status <;>
      simp_all [Status.isTerminal, Status.isActive, setStatus]
  · have none (e : Engine) (journal : e.journal = before.journal) :
        before.statusesSince e = [] := by
      rw [statusesSince, since, journal, ← List.length_reverse, List.drop_length]
      rfl
    exact none _ (by split_ifs <;> rfl)

private theorem statuses_of_begun {before e : Engine} {plan : Job} {first : Nat}
    (begun : Begun before plan first e) :
    ∃ path, before.statusesSince e.nextBatch = .running :: path ∧
      e.nextBatch.state.status = path.getLast?.getD .running ∧
      (path = [] ∨ path = [.completed] ∧ first = plan.file.totalRows ∨
        path = [.failed] ∧ ∃ row error, ∀ now, plan.contactAt now row = .error error) := by
  have state := begun.state
  obtain ⟨path, enters, outcome⟩ := enters_nextBatch e
  have all := (enters_begun begun).trans enters
  obtain ⟨_, _, _, reached⟩ := id all
  refine ⟨path, all.statuses, by simpa [List.getLast?_cons] using reached, ?_⟩
  obtain walked | ⟨ending, _, rfl⟩ := outcome
  · cases walked with
    | none => exact .inl rfl
    | cancelled cancelling => simp [state, reset] at cancelling
    | failed _ _ next error raised =>
      rw [contactAt_job begun.job] at raised
      exact .inr (.inr ⟨rfl, next, error, fun now => Job.contactAt_error_iff.mp raised⟩)
  · have within := begun.first_le
    simp [state, reset] at ending
    exact .inr (.inl ⟨rfl, Nat.le_antisymm within ending⟩)

private theorem statuses_of_move {before e : Engine} {plan : Job} {first : Nat}
    (placed : Placed before plan first .stage e) (move : Move) (admitted : e.admits move = true) :
    e.statusesSince (e.move move) = [] ∧ (e.move move).state.status = e.state.status ∨
      ∃ status, e.statusesSince (e.move move) = [status] ∧ (e.move move).state.status = status ∧
        (Transition plan move e.state.status status ∨ e.Slips move ∧ status = .completed) := by
  obtain ⟨path, enters, rfl | ⟨status, rfl, transition⟩⟩ := enters_move placed move admitted
  · exact .inl ⟨enters.statuses, enters.choose_spec.2.2⟩
  · exact .inr ⟨status, enters.statuses, enters.choose_spec.2.2, transition⟩

/-- A run that is paused where no row is left to begin can be completed without being resumed, and so
can no other. -/
private theorem completes_paused_iff {before e : Engine} {plan : Job} {first : Nat}
    {moves : List Move} {new : List Event} (course : Course before plan first moves new .stage e)
    (paused : (e.operate .pause).1 = true) :
    (∃ more e', Moves (e.operate .pause).2 more e' ∧
      .running ∉ (e.operate .pause).2.statusesSince e' ∧ e'.state.status = .completed) ↔
      e.nextRow = plan.file.totalRows := by
  obtain ⟨new, pausing⟩ := course.of_move _ (.operate .pause) rfl
  have still : (e.operate .pause).2.state.status = .paused := by
    rw [operate_changes] at paused
    cases status : e.state.status <;> simp_all [Action.on]
  have row : (e.operate .pause).2.nextRow = e.nextRow := by simp [nextRow]
  have total : (e.operate .pause).2.state.totalRows = plan.file.totalRows := pausing.placed.total
  rw [← row, ← total]
  constructor
  · rintro ⟨more, e', run, unresumed, completed⟩
    obtain ⟨_, path, enters, stands⟩ := pausing_moves pausing still run
    have same : (e.operate .pause).2.statusesSince e' = path := enters.statuses
    rw [same] at unresumed
    cases stands with
    | resumed resumed => exact absurd resumed unresumed
    | waits waits _ => simp [completed] at waits
    | stopped stopped => simp [completed] at stopped
    | completed _ last => exact last
  · intro last
    obtain ⟨more, e', path, run, enters, unresumed, completed⟩ :=
      completes_last pausing.placed still last
    exact ⟨more, e', run, enters.statuses ▸ unresumed, completed⟩

/-- The status of an engine through its runs. A start is refused while a run is going on, and a
mapping that cannot be used leaves no run. A run that starts is going on, unless it ends at once;
each of its moves enters one status at most, by a transition with its cause or by the slip. A run
that was paused can be completed without being resumed exactly if no row was left to begin. -/
theorem start_statuses (before : Engine) (job : Job) (row : Int) :
    (before.state.status.isActive = true → before.start job row = (.error .active, before)) ∧
      (before.state.status.isActive = false →
        ∀ error, job.mapping.validate job.file.headers = .error error →
          (before.start job row).1 = .error (.mapping error) ∧
            (before.start job row).2.state.status = .idle ∧
            before.statusesSince (before.start job row).2 = []) ∧
      (before.state.status.isActive = false →
        ∀ mapping dropped, job.mapping.validate job.file.headers = .ok (mapping, dropped) →
          (before.start job row).1 = .ok () ∧
            (∃ path, before.statusesSince (before.start job row).2 = .running :: path ∧
              (before.start job row).2.state.status = path.getLast?.getD .running ∧
              (path = [] ∨ path = [.completed] ∧ resumeRow job.file row = job.file.totalRows ∨
                path = [.failed] ∧
                  ∃ row error, ∀ now, (planOf job mapping).contactAt now row = .error error)) ∧
            ∀ moves e, Moves (before.start job row).2 moves e →
              (∀ move, e.admits move = true →
                e.statusesSince (e.move move) = [] ∧
                    (e.move move).state.status = e.state.status ∨
                  ∃ status, e.statusesSince (e.move move) = [status] ∧
                    (e.move move).state.status = status ∧
                    (Transition (planOf job mapping) move e.state.status status ∨
                      e.Slips move ∧ status = .completed)) ∧
              ((e.operate .pause).1 = true →
                ((∃ more e', Moves (e.operate .pause).2 more e' ∧
                    .running ∉ (e.operate .pause).2.statusesSince e' ∧
                    e'.state.status = .completed) ↔ e.nextRow = job.file.totalRows))) := by
  refine ⟨fun active => by simp [start, active],
    fun idle error invalid => statuses_of_invalid idle invalid row, ?_⟩
  intro idle mapping dropped valid
  obtain ⟨e₀, begun, started⟩ := start_valid before job row idle valid
  rw [started]
  refine ⟨rfl, statuses_of_begun begun, fun moves e reached => ?_⟩
  obtain ⟨new, course⟩ := Course.of_moves begun reached
  have completes := completes_paused_iff course
  exact ⟨fun move admitted => statuses_of_move course.placed move admitted, completes⟩

/-- A run of a file of one row that is paused during its delivery, and that nobody resumes, is
completed. -/
theorem paused_completed :
    ∃ e, Moves (sample.start { sampleJob with
          file := { sampleJob.file with rows := [["ann@x.io"]] } } 0).2
        [.operate .pause, .answer .accepted, .acknowledge none, .acknowledge none, .proceed] e ∧
      sample.statusesSince e = [.running, .paused, .completed] := by
  let job := { sampleJob with file := { sampleJob.file with rows := [["ann@x.io"]] } }
  let moves : List Move :=
    [.operate .pause, .answer .accepted, .acknowledge none, .acknowledge none, .proceed]
  have ended : ((sample.start job 0).2.after? moves).map sample.statusesSince
      = some [.running, .paused, .completed] := by
    decide +kernel
  obtain ⟨e, reached, statuses⟩ := Option.map_eq_some_iff.mp ended
  exact ⟨e, reaches_iff.mpr reached, statuses⟩

end Engine
end Intake
