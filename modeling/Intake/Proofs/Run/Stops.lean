import Intake.Proofs.Run.Refusals

/-! Where a run stops next. -/
namespace Intake.Engine
variable {e e' : Engine}

structure Stops (e e' : Engine) : Prop where
  released : e'.released = (e.released || !e'.stage.isUnderway)
  status : e'.stage.isUnderway = true → e'.state.status = e.state.status
  held : ∀ row stop, e'.stage = .release row stop → row < stop ∧ e'.state.status = .paused

namespace Stops

theorem finish (e : Engine) : Stops e e.finish :=
  ⟨by simp [Stage.isUnderway], by simp [Stage.isUnderway], by simp⟩

theorem fail (e : Engine) (failure : Failure) : Stops e (e.fail failure) :=
  ⟨by simp [Stage.isUnderway], by simp [Stage.isUnderway], by simp⟩

theorem interrupted (e : Engine) : Stops e e.interrupted :=
  ⟨by simp [Stage.isUnderway], by simp [Stage.isUnderway], by simp⟩

theorem of_same {e₀ : Engine} (stops : Stops e₀ e') (released : e₀.released = e.released)
    (status : e₀.state.status = e.state.status) : Stops e e' :=
  ⟨released ▸ stops.released, fun underway => (stops.status underway).trans status, stops.held⟩

theorem walk (e : Engine) (row stop : Nat) : Stops e (e.walk row stop) := by
  fun_induction Engine.walk e row stop with
  | case1 e row inside paused =>
    refine ⟨by simp [Stage.isUnderway], fun _ => rfl, ?_⟩
    rintro _ _ ⟨⟩
    exact ⟨inside, paused⟩
  | case2 e row inside unpaused cancelling => exact finish e
  | case3 e row inside unpaused going discards noted error => exact (fail noted _).of_same rfl rfl
  | case4 e row inside unpaused going discards noted contact due =>
    exact ⟨by simp [Stage.isUnderway, noted], fun _ => rfl, fun _ _ held => by cases held⟩
  | case5 e row inside unpaused going discards noted contact blank read ih => exact ih.of_same rfl rfl
  | case6 e row outside => exact ⟨by simp [Stage.isUnderway], by simp, by simp⟩

theorem nextBatch (e : Engine) : Stops e e.nextBatch := by
  unfold Engine.nextBatch
  split_ifs
  · exact (walk _ _ _).of_same rfl rfl
  · exact finish e

/-- A step of a run that waits takes it to its next stop. -/
theorem move (e : Engine) {move : Move} (step : move.isStep = true) (admitted : e.admits move = true)
    (underway : e.stage.isUnderway = true) : Stops e (e.move move) := by
  cases move with
  | answer reply =>
    cases stage : e.stage <;> simp only [admits, stage, Bool.false_eq_true] at admitted
    case call row stop contact =>
      cases reply with
      | accepted =>
        obtain ⟨_, _, _, _, state, released, stopped, _⟩ := accepted_fields stage
        exact ⟨by simp [Engine.move, released, stopped, Stage.isUnderway],
          by simp [Engine.move, state], by simp [Engine.move, stopped]⟩
      | rejected failure =>
        obtain ⟨_, _, _, _, state, released, stopped, _⟩ := rejected_fields stage failure
        exact ⟨by simp [Engine.move, released, stopped, Stage.isUnderway],
          by simp [Engine.move, state, RunState.reject], by simp [Engine.move, stopped]⟩
      | interrupted =>
        simp only [Engine.move, answer, stage]
        exact (interrupted _).of_same rfl rfl
  | acknowledge failure? =>
    cases stage : e.stage <;> simp only [admits, stage, Bool.false_eq_true] at admitted
    case rowNotice row stop =>
      cases failure? <;> simp only [Engine.move, acknowledge, stage]
      · exact walk _ _ _
      · exact fail _ _
    case batchNotice =>
      cases failure? <;> simp only [Engine.move, acknowledge, stage]
      · exact ⟨by simp [Stage.isUnderway], fun _ => rfl, fun _ _ held => by cases held⟩
      · exact fail _ _
    case finalNotice => simp [stage, Stage.isUnderway] at underway
  | proceed =>
    cases stage : e.stage <;> simp only [admits, stage, Bool.false_eq_true] at admitted
    case turn =>
      simp only [Engine.move, proceed, stage]
      exact nextBatch e
    case release row stop =>
      simp only [Engine.move, proceed, stage, admitted, if_true]
      exact walk _ _ _
  | interrupt =>
    cases stage : e.stage <;> simp only [admits, stage, Bool.false_eq_true] at admitted
    case call row stop contact =>
      simp only [Engine.move, interrupt, stage]
      exact (interrupted _).of_same rfl rfl
    case turn | release =>
      simp only [Engine.move, interrupt, stage]
      exact interrupted e
  | operate | save | tick => cases step

end Stops

end Intake.Engine
