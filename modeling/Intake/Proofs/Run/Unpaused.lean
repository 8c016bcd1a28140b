import Intake.Proofs.Run.Course

/-! A run that nobody pauses goes straight on to its end: every delivery that ends, every notice that
returns and every turn brings it nearer to that, and its rows bound how many of these there are. -/
namespace Intake

structure RunState.Advances (state : RunState) : Prop where
  active : state.status.isActive = true
  unpaused : state.status ≠ .paused
  low : 0 ≤ state.row

theorem RunState.Advances.cancel {state : RunState} (advances : state.Advances) :
    { state with status := Action.cancel.on state.status }.Advances := by
  obtain ⟨active, unpaused, low⟩ := advances
  refine ⟨?_, ?_, low⟩
  · simpa using active
  · cases status : state.status <;> simp_all [Action.on]

namespace Stage

def IsOnward (state : RunState) : Stage → Prop
  | call row stop _ | rowNotice row stop =>
    state.Advances ∧ row < stop ∧ (stop : Int) ≤ state.totalRows
  | batchNotice | turn => state.Advances
  | finalNotice | ended .finished => state.status.isTerminal = true
  | idle | release .. | ended _ => False

def stepsLeft (state : RunState) : Stage → Int
  | call row stop _ => 4 * (state.totalRows - stop) + 2 * (stop - row) + 3
  | rowNotice row stop => 4 * (state.totalRows - stop) + 2 * (stop - row) + 2
  | batchNotice => 4 * max 0 (state.totalRows - state.row) + 3
  | turn => 4 * max 0 (state.totalRows - state.row) + 2
  | finalNotice => 1
  | idle | release .. | ended _ => 0

end Stage

namespace Engine

structure Finished (e : Engine) : Prop where
  stage : e.stage = .ended .finished
  terminal : e.state.status.isTerminal = true

structure EndsWithin (e : Engine) (steps : Int) : Prop where
  onward : e.stage.IsOnward e.state
  bound : e.stage.stepsLeft e.state ≤ steps

theorem EndsWithin.mono {e : Engine} {steps more : Int} (ends : e.EndsWithin steps)
    (le : steps ≤ more) : e.EndsWithin more :=
  ⟨ends.onward, Int.le_trans ends.bound le⟩

theorem EndsWithin.rested {e : Engine} {steps : Int} (ends : e.EndsWithin steps)
    (rested : e.stage.isBusy = false) : e.Finished := by
  have onward := ends.onward
  cases stage : e.stage with
  | ended outcome =>
    cases outcome <;> simp only [stage, Stage.IsOnward] at onward
    exact ⟨stage, onward⟩
  | _ => simp_all [Stage.IsOnward, Stage.isBusy]

theorem EndsWithin.pos {e : Engine} {steps : Int} (ends : e.EndsWithin steps)
    (busy : e.stage.isBusy = true) : 0 < steps := by
  obtain ⟨onward, bound⟩ := ends
  cases stage : e.stage <;>
    simp only [stage, Stage.IsOnward, Stage.stepsLeft, Stage.isBusy, Bool.false_eq_true]
      at onward bound busy <;> omega

theorem endsWithin_finish (e : Engine) : e.finish.EndsWithin 1 := by
  refine ⟨?_, by simp [Stage.stepsLeft]⟩
  simp only [finish_fields, Stage.IsOnward]
  split_ifs <;> rfl

theorem endsWithin_fail (e : Engine) (failure : Failure) : (e.fail failure).EndsWithin 1 := by
  refine ⟨?_, by simp [Stage.stepsLeft]⟩
  simp only [fail_fields, Stage.IsOnward]
  rfl

theorem endsWithin_walk (e : Engine) (row stop : Nat) (advances : e.state.Advances)
    (inside : row ≤ stop) (within : (stop : Int) ≤ e.state.totalRows) :
    (e.walk row stop).EndsWithin (4 * (e.state.totalRows - stop) + 2 * (stop - row) + 3) := by
  fun_induction walk e row stop with
  | case1 e row left paused => exact absurd paused advances.unpaused
  | case2 e row left unpaused cancelling => exact (endsWithin_finish _).mono (by omega)
  | case3 e row left unpaused going discards noted error =>
    exact (endsWithin_fail _ _).mono (by omega)
  | case4 e row left unpaused going discards noted contact due =>
    exact ⟨⟨advances, left, within⟩, Int.le_refl _⟩
  | case5 e row left unpaused going discards noted contact blank read ih =>
    refine (ih advances left within).mono ?_
    simp only [noted, noteAll_fields]
    omega
  | case6 e row outside =>
    refine ⟨?_, ?_⟩
    · simpa [Stage.IsOnward] using ⟨advances.active, advances.unpaused, by simp⟩
    · simp [Stage.stepsLeft]
      omega

theorem endsWithin_nextBatch (e : Engine) (advances : e.state.Advances) :
    e.nextBatch.EndsWithin (4 * max 0 (e.state.totalRows - e.state.row) + 1) := by
  unfold nextBatch
  by_cases left : e.state.row < e.state.totalRows ∧ e.state.status ≠ .cancelling
  · rw [if_pos left]
    have size := e.batchSize_pos
    have low := advances.low
    obtain ⟨more, _⟩ := left
    apply (endsWithin_walk _ _ _ _ _ _).mono
    · simp only [note_fields]
      omega
    · exact ⟨advances.active, advances.unpaused, low⟩
    · omega
    · simp only [note_fields]
      omega
  · rw [if_neg left]
    exact (endsWithin_finish e).mono (by omega)

/-- A delivery that ends without interrupting the run brings it nearer to its end. -/
theorem endsWithin_answer {e : Engine} {steps : Int} {row stop : Nat} {contact : Contact}
    (ends : e.EndsWithin steps) (called : e.stage = .call row stop contact) {reply : Reply}
    (through : reply ≠ .interrupted) : (e.answer reply).EndsWithin (steps - 1) := by
  obtain ⟨onward, bound⟩ := ends
  simp only [called, Stage.IsOnward, Stage.stepsLeft] at onward bound
  obtain ⟨⟨active, unpaused, low⟩, inside, within⟩ := onward
  cases reply with
  | accepted =>
    refine ⟨?_, ?_⟩ <;>
      simp only [accepted_fields called, Stage.IsOnward, Stage.stepsLeft]
    · exact ⟨⟨active, unpaused, low⟩, inside, within⟩
    · omega
  | rejected failure =>
    refine ⟨?_, ?_⟩ <;>
      simp only [rejected_fields called, Stage.IsOnward, Stage.stepsLeft, RunState.reject]
    · exact ⟨⟨active, unpaused, low⟩, inside, within⟩
    · omega
  | interrupted => exact absurd rfl through

/-- So does a notice that returns. -/
theorem endsWithin_acknowledge {e : Engine} {steps : Int} (ends : e.EndsWithin steps)
    (notice : e.admits (.acknowledge none) = true) :
    (e.acknowledge none).EndsWithin (steps - 1) := by
  obtain ⟨onward, bound⟩ := ends
  cases stage : e.stage <;> simp only [admits, stage, Bool.false_eq_true] at notice <;>
    simp only [stage, Stage.IsOnward, Stage.stepsLeft] at onward bound <;>
    simp only [acknowledge, stage]
  case rowNotice row stop =>
    obtain ⟨advances, inside, within⟩ := onward
    exact (endsWithin_walk e _ _ advances inside within).mono (by omega)
  case batchNotice => exact ⟨onward, by simp only [Stage.stepsLeft]; omega⟩
  case finalNotice => exact ⟨onward, by simp only [note_fields, Stage.stepsLeft]; omega⟩

/-- So does the next turn. -/
theorem endsWithin_proceed {e : Engine} {steps : Int} (ends : e.EndsWithin steps)
    (turn : e.stage = .turn) : e.proceed.EndsWithin (steps - 1) := by
  obtain ⟨onward, bound⟩ := ends
  simp only [turn, Stage.IsOnward, Stage.stepsLeft] at onward bound
  simp only [proceed, turn]
  exact (endsWithin_nextBatch e onward).mono (by omega)

/-- Asking a run to stop keeps it from being paused, and it takes no more steps than before. -/
theorem endsWithin_cancel {e : Engine} {steps : Int} (ends : e.EndsWithin steps) :
    e.cancel.2.EndsWithin steps := by
  obtain ⟨onward, bound⟩ := ends
  have changed := e.operate_fields .cancel
  obtain ⟨_, _, _, state, stage, _⟩ := changed
  refine ⟨?_, ?_⟩
  · show (e.operate .cancel).2.stage.IsOnward (e.operate .cancel).2.state
    rw [state, stage]
    cases at_stage : e.stage with
    | call row stop contact | rowNotice row stop =>
      simp only [at_stage, Stage.IsOnward] at onward ⊢
      exact ⟨onward.1.cancel, onward.2⟩
    | batchNotice | turn =>
      simp only [at_stage, Stage.IsOnward] at onward ⊢
      exact onward.cancel
    | finalNotice => simpa [at_stage, Stage.IsOnward] using onward
    | ended outcome => cases outcome <;> simp_all [Stage.IsOnward]
    | idle | release row stop => simp [at_stage, Stage.IsOnward] at onward
  · show (e.operate .cancel).2.stage.stepsLeft (e.operate .cancel).2.state ≤ steps
    rw [state, stage]
    cases at_stage : e.stage <;> simpa [at_stage, Stage.stepsLeft] using bound

/-- A run takes four steps for each row that is left at most, and one for its end. -/
theorem endsWithin_begun {before e : Engine} {plan : Job} {first : Nat}
    (begun : Begun before plan first e) :
    e.nextBatch.EndsWithin (4 * plan.file.totalRows + 1) := by
  have advances : e.state.Advances := by
    refine ⟨?_, ?_, ?_⟩ <;> simp [begun.state, reset, Status.isActive]
  refine (endsWithin_nextBatch e advances).mono ?_
  simp only [begun.state, reset]
  omega

end Engine
end Intake
