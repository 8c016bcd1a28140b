import Intake.Proofs.Run.Position

/-! How a run comes to its end. Each step of its surroundings brings a run nearer to its end, so that
its rows bound their number, and a run that has not ended waits for such a step, unless it is held
before a row while it is paused. Once its status is terminal its state stays as it is, and what the
run comes to is what its last notice comes to. -/
namespace Intake

namespace Move

def isStep : Move → Bool
  | answer _ | acknowledge _ | proceed | interrupt => true
  | operate _ | save | tick _ => false

def isInterruption : Move → Bool
  | answer .interrupted | interrupt => true
  | _ => false

end Move

def Stage.outcome? : Stage → Option Outcome
  | ended outcome => some outcome
  | _ => none

theorem Stage.outcome?_eq_some {stage : Stage} {outcome : Outcome} :
    stage.outcome? = some outcome ↔ stage = .ended outcome := by
  cases stage <;> simp [outcome?]

theorem Stage.outcome?_of_isBusy {stage : Stage} (busy : stage.isBusy = true) :
    stage.outcome? = none := by
  cases stage <;> first | rfl | cases busy

def Outcome.ofNotice : Option Failure → Outcome
  | none => finished
  | some failure => failed failure

/-- How many steps a run may take from a point of its plan on. A row takes three at most, one of them
its release, and the end of a batch two; a row that is to be held has its release before it. -/
def Point.left (plan : Job) (e : Engine) : Point → Int
  | batch => 6 * (plan.file.totalRows - e.state.row) + 3
  | row next stop =>
    6 * (plan.file.totalRows - stop) + 3 * (stop - next) + if e.state.status = .paused then 6 else 5
  | stage =>
    match e.stage with
    | .call current stop _ => 6 * (plan.file.totalRows - stop) + 3 * (stop - current) + 5
    | .rowNotice current stop => 6 * (plan.file.totalRows - stop) + 3 * (stop - current) + 4
    | .release current stop => 6 * (plan.file.totalRows - stop) + 3 * (stop - current) + 6
    | .batchNotice => 6 * (plan.file.totalRows - e.state.row) + 5
    | .turn => 6 * (plan.file.totalRows - e.state.row) + 4
    | .finalNotice => 1
    | .idle | .ended _ => 0

theorem Action.on_of_isTerminal (action : Action) {status : Status}
    (terminal : status.isTerminal = true) : action.on status = status := by
  cases action <;> cases status <;> simp_all [Action.on, Status.isTerminal]

namespace Engine

def IsOver (e : Engine) : Prop := e.stage = .finalNotice ∨ ∃ outcome, e.stage = .ended outcome

def IsHeld (e : Engine) : Prop :=
  e.state.status = .paused ∧ ∃ row stop, e.stage = .release row stop

def Awaits (e : Engine) : Prop :=
  ∃ move : Move, move.isStep = true ∧ move.isInterruption = false ∧ e.admits move = true

theorem isBusy_walk (e : Engine) (row stop : Nat) : (e.walk row stop).stage.isBusy = true := by
  fun_induction walk e row stop with
  | case1 e row inside paused => rfl
  | case2 e row inside unpaused cancelling => simp [Stage.isBusy]
  | case3 e row inside unpaused going discards noted error => simp [Stage.isBusy]
  | case4 e row inside unpaused going discards noted contact due => rfl
  | case5 e row inside unpaused going discards noted contact blank read => assumption
  | case6 e row outside => simp [Stage.isBusy]

theorem isBusy_nextBatch (e : Engine) : e.nextBatch.stage.isBusy = true := by
  unfold nextBatch
  split_ifs
  · exact isBusy_walk _ _ _
  · simp [Stage.isBusy]

theorem isBusy_of_start {before e : Engine} {job : Job} {row : Int}
    (started : before.start job row = (.ok (), e)) : e.stage.isBusy = true := by
  obtain ⟨mapping, dropped, valid⟩ := valid_of_start started
  obtain ⟨e₀, _, same⟩ := start_valid before job row (idle_of_start started) valid
  obtain rfl : e = e₀.nextBatch := congrArg Prod.snd (started.symm.trans same)
  exact isBusy_nextBatch e₀

theorem operate_released {e : Engine} (signal : e.released = true ↔ e.state.status ≠ .paused)
    (action : Action) :
    (e.operate action).2.released = true ↔ (e.operate action).2.state.status ≠ .paused := by
  cases action <;> cases status : e.state.status <;>
    simp_all [operate, pause, resume, cancel, ignore, setStatus, notify]

namespace Course
variable {before e : Engine} {plan : Job} {first : Nat} {moves : List Move} {new : List Event}
  {p : Point}

/-- Throughout a run its signal of release is down exactly while it is paused. -/
theorem signal (course : Course before plan first moves new p e) :
    e.released = true ↔ e.state.status ≠ .paused := by
  -- Pausing clears the signal, and every way out of the pause sets it.
  induction course with
  | begun begun => simp [begun.released, begun.state, reset]
  | opened | held | skipped | submitted | yielded | ended | ticked => assumption
  | returned | continued | released => assumption
  | finished | stopped =>
    simp only [finish_fields, true_iff]
    split_ifs <;> simp
  | raised | crashed => simp
  | cutOff | interrupted => simp
  | closed _ _ ih => simpa using ih
  | accepted _ called ih => simpa [accepted_fields called] using ih
  | rejected _ called _ ih => simpa [rejected_fields called, RunState.reject] using ih
  | operated _ action ih => exact operate_released ih action
  | saved _ ih => simpa using ih

/-- The steps that a run has taken and those that are left are bounded by its rows. -/
theorem steps (course : Course before plan first moves new p e) :
    moves.countP Move.isStep + p.left plan e ≤ 6 * (plan.file.totalRows - first) + 3 := by
  -- No step raises the sum: what it adds to the moves it takes from what is left.
  induction course with
  | begun begun => simp [Point.left, begun.state, reset]
  | @opened _ _ e stop course left going ends batch counted ih =>
    have size := e.batchSize_pos
    have placed := course.placed
    have total := placed.total
    have low := placed.low
    simp only [Point.left, note_fields] at ih ⊢
    split_ifs <;> omega
  | finished course ending ih =>
    have high := course.placed.high
    simp only [Point.left, finish_fields] at ih ⊢
    omega
  | held course inside paused ih => simpa [Point.left, paused] using ih
  | stopped course inside cancelling ih =>
    obtain ⟨_, _, _, within⟩ := course.placed.fits
    simp only [Point.left, finish_fields] at ih ⊢
    split_ifs at ih <;> omega
  | raised course inside unpaused going read ih =>
    obtain ⟨_, _, _, within⟩ := course.placed.fits
    simp only [Point.left, fail_fields] at ih ⊢
    split_ifs at ih <;> omega
  | skipped course inside unpaused going read blank ih =>
    simp only [Point.left, noteAll_fields, if_neg unpaused] at ih ⊢
    omega
  | submitted course inside unpaused going read due ih =>
    simpa [Point.left, unpaused] using ih
  | closed course outside ih =>
    obtain ⟨_, _, ended, within⟩ := course.placed.fits
    simp only [Point.left, closeBatch_fields] at ih ⊢
    split_ifs at ih <;> omega
  | accepted course called ih =>
    simp [Point.left, called, accepted_fields called, Move.isStep] at ih ⊢
    omega
  | rejected course called failure ih =>
    simp [Point.left, called, rejected_fields called, Move.isStep] at ih ⊢
    omega
  | cutOff course called move cut ih =>
    have fits := course.placed.fits
    simp only [Point.Fits, called] at fits
    have step : move.isStep = true := by obtain rfl | rfl := cut <;> rfl
    simp [Point.left, called, step] at ih ⊢
    omega
  | interrupted course waiting ih =>
    have high := course.placed.high
    have fits := course.placed.fits
    obtain waiting | ⟨row, stop, waiting⟩ := waiting <;>
      simp only [Point.Fits, waiting] at fits <;>
      simp [Point.left, waiting, Move.isStep] at ih ⊢ <;> omega
  | returned course noticed ih =>
    simp [Point.left, noticed, Move.isStep] at ih ⊢
    split_ifs <;> omega
  | yielded course noticed ih =>
    simp [Point.left, noticed, Move.isStep] at ih ⊢
    omega
  | crashed course noticed failure ih =>
    have high := course.placed.high
    have fits := course.placed.fits
    obtain noticed | ⟨row, stop, noticed⟩ := noticed <;>
      simp only [Point.Fits, noticed] at fits <;>
      simp [Point.left, noticed, Move.isStep] at ih ⊢ <;> omega
  | ended course noticed failure? outcome ih =>
    simpa [Point.left, noticed, Move.isStep] using ih
  | continued course waiting ih =>
    simp [Point.left, waiting, Move.isStep] at ih ⊢
    omega
  | released course waiting signal ih =>
    have unpaused := course.signal.mp signal
    simp [Point.left, waiting, Move.isStep, unpaused] at ih ⊢
    omega
  | operated course action ih => simpa [Point.left, Move.isStep] using ih
  | saved course ih => simpa [Point.left, Move.isStep] using ih
  | ticked course now shown ih => simpa [Point.left, Move.isStep] using ih

theorem steps_le (course : Course before plan first moves new .stage e) :
    moves.countP Move.isStep ≤ 6 * (plan.file.totalRows - first) + 3 := by
  have taken := course.steps
  have placed := course.placed
  have low := placed.low
  have high := placed.high
  have fits := placed.fits
  cases stage : e.stage <;> simp only [Point.left, Point.Fits, stage] at taken fits <;> omega

/-- A run that has not ended waits for a step, or it is held. -/
theorem awaits (course : Course before plan first moves new .stage e) :
    (∃ outcome, e.stage = .ended outcome) ∨ e.IsHeld ∨ e.Awaits := by
  have fits := course.placed.fits
  cases stage : e.stage with
  | idle => simp [Point.Fits, stage] at fits
  | call row stop contact =>
    exact .inr (.inr ⟨.answer .accepted, rfl, rfl, by simp [admits, stage]⟩)
  | rowNotice row stop => exact .inr (.inr ⟨.acknowledge none, rfl, rfl, by simp [admits, stage]⟩)
  | batchNotice => exact .inr (.inr ⟨.acknowledge none, rfl, rfl, by simp [admits, stage]⟩)
  | turn => exact .inr (.inr ⟨.proceed, rfl, rfl, by simp [admits, stage]⟩)
  | release row stop =>
    by_cases paused : e.state.status = .paused
    · exact .inr (.inl ⟨paused, row, stop, stage⟩)
    · have signal := course.signal.mpr paused
      exact .inr (.inr ⟨.proceed, rfl, rfl, by simp [admits, stage, signal]⟩)
  | finalNotice => exact .inr (.inr ⟨.acknowledge none, rfl, rfl, by simp [admits, stage]⟩)
  | ended outcome => exact .inl ⟨outcome, rfl⟩

end Course

namespace Placed
variable {before e : Engine} {plan : Job} {first : Nat}

theorem terminal (placed : Placed before plan first .stage e) (isOver : e.IsOver) :
    e.state.status.isTerminal = true := by
  have fits := placed.fits
  obtain stage | ⟨outcome, stage⟩ := isOver <;> simp only [Point.Fits, stage] at fits <;>
    exact fits.1

theorem active (placed : Placed before plan first .stage e) (going : ¬ e.IsOver) :
    e.state.status.isActive = true := by
  have fits := placed.fits
  cases stage : e.stage <;> simp_all [Point.Fits, IsOver]

theorem isOver (placed : Placed before plan first .stage e)
    (terminal : e.state.status.isTerminal = true) : e.IsOver := by
  by_contra going
  have active := placed.active going
  cases status : e.state.status <;> simp_all [Status.isTerminal, Status.isActive]

theorem state_move (placed : Placed before plan first .stage e)
    (terminal : e.state.status.isTerminal = true) (move : Move) (admitted : e.admits move = true) :
    (e.move move).state = e.state := by
  have isOver := placed.isOver terminal
  cases move with
  | answer reply | proceed | interrupt =>
    obtain stage | ⟨outcome, stage⟩ := isOver <;> simp [admits, stage] at admitted
  | acknowledge failure? =>
    obtain stage | ⟨outcome, stage⟩ := isOver
    · cases failure? <;> simp [Engine.move, acknowledge, stage]
    · simp [admits, stage] at admitted
  | operate action => simp [Engine.move, action.on_of_isTerminal terminal]
  | save => simp [Engine.move]
  | tick now => rfl

end Placed

/-- A run ends by an interruption, or by what comes of its last notice. -/
theorem ended_move {e : Engine} {move : Move} {outcome : Outcome}
    (ended : (e.move move).stage = .ended outcome) :
    e.stage = .ended outcome ∨ move.isInterruption = true ∨
      e.stage = .finalNotice ∧ ∃ failure?, move = .acknowledge failure? ∧
        outcome = .ofNotice failure? := by
  have busy {e' : Engine} (busy : e'.stage.isBusy = true) (ended : e'.stage = .ended outcome) :
      False := by
    simp [ended, Stage.isBusy] at busy
  cases move with
  | answer reply =>
    cases stage : e.stage <;> simp only [Engine.move, answer, stage] at ended
    case call row stop contact =>
      cases reply with
      | accepted => simp [notify] at ended
      | rejected failure => simp [notify] at ended
      | interrupted => exact .inr (.inl rfl)
    all_goals exact .inl (stage ▸ ended)
  | acknowledge failure? =>
    cases stage : e.stage <;> cases failure? <;>
      simp only [Engine.move, acknowledge, stage] at ended
    case rowNotice.none => exact (busy (isBusy_walk _ _ _) ended).elim
    case rowNotice.some => simp at ended
    case batchNotice.none => cases ended
    case batchNotice.some => simp at ended
    case finalNotice.none =>
      exact .inr (.inr ⟨rfl, none, rfl, by simpa [Outcome.ofNotice] using ended.symm⟩)
    case finalNotice.some failure =>
      exact .inr (.inr ⟨rfl, some failure, rfl, by simpa [Outcome.ofNotice] using ended.symm⟩)
    all_goals exact .inl (stage ▸ ended)
  | proceed =>
    cases stage : e.stage <;> simp only [Engine.move, proceed, stage] at ended
    case turn => exact (busy (isBusy_nextBatch _) ended).elim
    case release row stop =>
      split at ended
      · exact (busy (isBusy_walk _ _ _) ended).elim
      · simp [stage] at ended
    all_goals exact .inl (stage ▸ ended)
  | interrupt => exact .inr (.inl rfl)
  | operate action => exact .inl (by simpa [Engine.move] using ended)
  | save => exact .inl (by simpa [Engine.move] using ended)
  | tick now => exact .inl ended

namespace Course
variable {before start e : Engine} {plan : Job} {first : Nat} {moves more : List Move}
  {new : List Event}

theorem extend (course : Course before plan first moves new .stage start)
    (run : Moves start more e) :
    ∃ later, Course before plan first (moves ++ more) later .stage e := by
  induction run with
  | none => exact ⟨new, by simpa using course⟩
  | next move run admitted ih =>
    obtain ⟨_, there⟩ := ih
    obtain ⟨later, next⟩ := there.of_move _ move admitted
    exact ⟨later, by simpa using next⟩

/-- Once the status of a run is terminal, its state stays as it is. -/
theorem state_moves (course : Course before plan first moves new .stage start)
    (terminal : start.state.status.isTerminal = true) (run : Moves start more e) :
    e.state = start.state := by
  induction run with
  | none => rfl
  | next move run admitted ih =>
    obtain ⟨_, there⟩ := course.extend run
    exact (there.placed.state_move (by rw [ih]; exact terminal) move admitted).trans ih

/-- A run that was not interrupted comes to what its last notice comes to. -/
theorem notice_of_ended (course : Course before plan first moves new .stage start)
    (busy : start.stage.isBusy = true) (run : Moves start more e)
    (uninterrupted : ∀ move ∈ more, move.isInterruption = false) {outcome : Outcome}
    (ended : e.stage = .ended outcome) :
    ∃ earlier failure? later notified, more = earlier ++ .acknowledge failure? :: later ∧
      Moves start earlier notified ∧ notified.stage = .finalNotice ∧
      outcome = .ofNotice failure? ∧ e.state = notified.state := by
  -- The end comes with the latest move or was there before it; then the state has stayed as it was.
  induction run with
  | none => simp [ended, Stage.isBusy] at busy
  | @next more middle move run admitted ih =>
    obtain ⟨_, there⟩ := course.extend run
    obtain still | interruption | ⟨notified, failure?, rfl, came⟩ := ended_move ended
    · obtain ⟨earlier, failure?, later, notified, rfl, before, stage, came, same⟩ :=
        ih (fun move here => uninterrupted move (List.mem_append_left _ here)) still
      have terminal := there.placed.terminal (.inr ⟨_, still⟩)
      exact ⟨earlier, failure?, later ++ [move], notified, by simp, before, stage, came,
        (there.placed.state_move terminal move admitted).trans same⟩
    · simp [uninterrupted move (by simp)] at interruption
    · have terminal := there.placed.terminal (.inl notified)
      exact ⟨more, failure?, [], middle, rfl, run, notified, came,
        there.placed.state_move terminal _ admitted⟩

end Course
end Engine
end Intake
