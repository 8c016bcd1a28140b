import Intake.Proofs.Run.Ending
import Intake.Proofs.Run.Progress

/-! What becomes of a run whose notices fail. A failure of any notice but the last one is taken by the
run itself, which then fails and keeps its progress. The last notice stands outside of that: the run
comes to its failure, whatever its status is. -/
namespace Intake

theorem Failure.text_ne_nil {failure : Failure} (named : failure.kind ≠ []) : failure.text ≠ [] := by
  unfold Failure.text
  split_ifs with silent
  · exact named
  · simpa using silent

namespace Engine

theorem acknowledge_failure {e : Engine} {failure : Failure}
    (admitted : e.admits (.acknowledge (some failure)) = true) (within : e.stage ≠ .finalNotice) :
    e.move (.acknowledge (some failure)) = e.fail failure := by
  cases stage : e.stage with
  | rowNotice row stop | batchNotice => simp [Engine.move, acknowledge, stage]
  | finalNotice => exact absurd stage within
  | idle | call | turn | release | ended => simp [admits, stage] at admitted

/-- From a notice that fails within a run on, the run has failed where it stood. -/
theorem Course.failed_of_notice {before start e : Engine} {plan : Job} {first : Nat}
    {moves later : List Move} {new : List Event} {failure : Failure}
    (course : Course before plan first moves new .stage start)
    (active : start.state.status.isActive = true)
    (run : Moves start (.acknowledge (some failure) :: later) e) :
    e.state = { start.state with status := .failed, fatal := some failure.text } := by
  -- At its last notice a run would not be active any more.
  have within : start.stage ≠ .finalNotice := by
    intro stage
    have terminal := course.placed.terminal (.inl stage)
    cases status : start.state.status <;> simp_all [Status.isActive, Status.isTerminal]
  obtain ⟨admitted, rest⟩ := reaches_cons_iff.mp run
  obtain ⟨_, failing⟩ := course.of_move _ (.acknowledge (some failure)) admitted
  rw [acknowledge_failure admitted within] at rest failing
  rw [failing.state_moves (by simp [Status.isTerminal]) rest, (fail_fields start failure).2.2.2.1]

/-- A run that is not interrupted comes to its end: its rows bound its steps, and until then it waits
for a step or is held by its operator. Its status is then terminal, and it comes to what its last
notice comes to, so that it returns its state if that notice does. If another notice has failed, the
run has failed where it stood, with the text of that failure, and its progress is stored. -/
theorem start_returns (before : Engine) (job : Job) (row : Int) {mapping : Mapping}
    {dropped : List Text} (idle : before.state.status.isActive = false)
    (valid : job.mapping.validate job.file.headers = .ok (mapping, dropped)) {moves : List Move}
    {e : Engine} (reached : Moves (before.start job row).2 moves e)
    (uninterrupted : ∀ move ∈ moves, move.isInterruption = false) :
    (before.start job row).1 = .ok () ∧
      moves.countP Move.isStep ≤ 6 * job.file.totalRows + 3 ∧
      ((∃ outcome, e.stage = .ended outcome) ∨ e.IsHeld ∨ e.Awaits) ∧
      (∀ outcome, e.stage = .ended outcome → e.state.status.isTerminal = true ∧
        ∃ earlier failure? later notified, moves = earlier ++ .acknowledge failure? :: later ∧
          Moves (before.start job row).2 earlier notified ∧ notified.stage = .finalNotice ∧
          outcome = .ofNotice failure? ∧ e.state = notified.state) ∧
      ∀ earlier failure later failing, moves = earlier ++ .acknowledge (some failure) :: later →
        Moves (before.start job row).2 earlier failing → failing.state.status.isActive = true →
        e.state = { failing.state with status := .failed, fatal := some failure.text } ∧
          (failure.kind ≠ [] → failure.text ≠ []) ∧
          ((∀ event ∈ before.since e, event.isLoss = false) →
            ∃ c : Checkpoint, e.store.Holds before.workspace job.file.name c ∧
              c.row = failing.state.row ∧ c.mapping = mapping ∧
              c.lists = Entries.distinct job.lists) := by
  obtain ⟨e₀, begun, started⟩ := start_valid before job row idle valid
  rw [started] at reached ⊢
  obtain ⟨new, course⟩ := Course.of_moves begun reached
  refine ⟨rfl, ?_, course.awaits, ?_, ?_⟩
  · have steps := course.steps_le
    simp only [planOf] at steps
    omega
  · intro outcome ended
    obtain ⟨_, opening⟩ := Course.of_nextBatch e₀ (.begun begun)
    exact ⟨course.placed.terminal (.inr ⟨outcome, ended⟩),
      opening.notice_of_ended (isBusy_nextBatch e₀) reached uninterrupted ended⟩
  · rintro earlier failure later failing rfl stopped active
    obtain ⟨middle, there, rest⟩ := reaches_append_iff.mp reached
    obtain rfl := there.unique stopped
    obtain ⟨_, going⟩ := Course.of_moves begun there
    have state := going.failed_of_notice active rest
    refine ⟨state, Failure.text_ne_nil, fun lossless => ?_⟩
    obtain ⟨c, held, _, at_row, _, mapped, listed, _⟩ :=
      course.kept (course.lossless lossless) (by simp [state])
    refine ⟨c, ?_, ?_, mapped, listed⟩
    · simpa [course.placed.workspace, planOf] using held
    · rw [at_row, state]

/-- A run of the sample whose notice after its first row fails has failed with the text of that
failure, and it returns. -/
theorem start_returns_sample :
    ∃ moves e, Moves (sample.start sampleJob 0).2 moves e ∧ e.stage = .ended .finished ∧
      e.state.status = .failed ∧ e.state.fatal = some "boom" := by
  let failure : Failure := ⟨"RuntimeError", "boom"⟩
  let moves : List Move := [.answer .accepted, .acknowledge (some failure), .acknowledge none]
  have active : ((sample.start sampleJob 0).2.after? [.answer .accepted]).map
      (·.state.status.isActive) = some true := by
    decide +kernel
  have ended : ((sample.start sampleJob 0).2.after? moves).map (·.stage.outcome?)
      = some (some .finished) := by
    decide +kernel
  obtain ⟨failing, before, active⟩ := Option.map_eq_some_iff.mp active
  obtain ⟨e, reached, returned⟩ := Option.map_eq_some_iff.mp ended
  have run := reaches_iff.mpr reached
  obtain ⟨state, _⟩ := (start_returns sample sampleJob 0 rfl sampleJob_valid run
    (by decide)).2.2.2.2 _ failure _ failing rfl (reaches_iff.mpr before) active
  exact ⟨moves, e, run, Stage.outcome?_eq_some.mp returned, by rw [state], by rw [state]; rfl⟩

/-- A completed run of the sample whose last notice fails does not return its state. -/
theorem last_notice_propagates :
    ∃ moves e, Moves (sample.start sampleJob 0).2 moves e ∧
      (∀ move ∈ moves, move.isInterruption = false) ∧ e.state.status = .completed ∧
      e.stage = .ended (.failed ⟨"RuntimeError", "boom"⟩) := by
  let moves : List Move := [.answer .accepted, .acknowledge none, .acknowledge none, .proceed,
    .acknowledge (some ⟨"RuntimeError", "boom"⟩)]
  have ended : ((sample.start sampleJob 0).2.after? moves).map
      (fun e => (e.state.status, e.stage.outcome?))
      = some (.completed, some (.failed ⟨"RuntimeError", "boom"⟩)) := by
    decide +kernel
  obtain ⟨e, reached, shown⟩ := Option.map_eq_some_iff.mp ended
  simp only [Prod.mk.injEq] at shown
  obtain ⟨completed, failed⟩ := shown
  exact ⟨moves, e, reaches_iff.mpr reached, by decide, completed, Stage.outcome?_eq_some.mp failed⟩

end Engine
end Intake
