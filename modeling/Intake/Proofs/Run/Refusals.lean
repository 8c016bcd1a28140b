import Intake.Proofs.Mapping
import Intake.Proofs.Run.ErrorLog
import Intake.Proofs.Run.Restraint

/-! Starts that are refused. An engine is active exactly while it waits in a run, so that a start is
refused for the sake of a run only while there is one; and a start that is refused for its mapping
takes nothing from the run before it but its status. -/
namespace Intake

def Stage.isUnderway : Stage → Bool
  | call .. | rowNotice .. | batchNotice | turn | release .. => true
  | idle | finalNotice | ended _ => false

theorem Status.eq_idle {status : Status} (inactive : status.isActive = false)
    (open_ended : status.isTerminal = false) : status = .idle := by
  cases status <;> simp_all [Status.isActive, Status.isTerminal]

def RunState.counts (s : RunState) : Int × Int × List ErrorEntry := (s.success, s.failure, s.errors)

namespace Engine
variable {e : Engine}

def Tells (e : Engine) : Prop := e.state.status.isActive = e.stage.isUnderway

theorem tells_finish (e : Engine) : e.finish.Tells := by
  simp only [Tells, finish_fields]
  split_ifs <;> rfl

theorem tells_fail (e : Engine) (failure : Failure) : (e.fail failure).Tells := by
  simp [Tells, Status.isActive, Stage.isUnderway]

theorem tells_interrupted (e : Engine) : e.interrupted.Tells := by
  simp [Tells, Status.isActive, Stage.isUnderway]

theorem tells_walk (row stop : Nat) (active : e.state.status.isActive = true) :
    (e.walk row stop).Tells := by
  fun_induction walk e row stop with
  | case1 e row inside paused => exact active
  | case2 e row inside unpaused cancelling => exact tells_finish e
  | case3 e row inside unpaused going discards noted error => exact tells_fail noted _
  | case4 e row inside unpaused going discards noted contact due => exact active
  | case5 e row inside unpaused going discards noted contact blank read ih => exact ih active
  | case6 e row outside => simpa [Tells, Stage.isUnderway] using active

theorem tells_nextBatch (active : e.state.status.isActive = true) : e.nextBatch.Tells := by
  unfold nextBatch
  split_ifs
  · exact tells_walk _ _ active
  · exact tells_finish e

theorem counts_walk (e : Engine) (row stop : Nat) :
    (e.walk row stop).state.counts = e.state.counts := by
  fun_induction walk e row stop with
  | case1 e row inside paused => rfl
  | case2 e row inside unpaused cancelling => simp [RunState.counts]
  | case3 e row inside unpaused going discards noted error => simp [RunState.counts, noted]
  | case4 e row inside unpaused going discards noted contact due => rfl
  | case5 e row inside unpaused going discards noted contact blank read ih => exact ih
  | case6 e row outside => simp [RunState.counts]

/-- Nothing is counted on the way into a batch. -/
theorem counts_nextBatch (e : Engine) : e.nextBatch.state.counts = e.state.counts := by
  unfold nextBatch
  split_ifs
  · exact counts_walk _ _ _
  · simp [RunState.counts]

/-- A move keeps the status in step with the stage. -/
theorem Tells.move (tells : e.Tells) (move : Move) : (e.move move).Tells := by
  cases move with
  | answer reply =>
    cases stage : e.stage <;> simp only [Engine.move, answer, stage]
    case call row stop contact =>
      cases reply with
      | accepted | rejected failure =>
        simpa [Tells, stage, Stage.isUnderway, notify, RunState.reject] using tells
      | interrupted => exact tells_interrupted _
    all_goals exact tells
  | acknowledge failure? =>
    cases stage : e.stage <;> cases failure? <;> simp only [Engine.move, acknowledge, stage]
    case rowNotice.none row stop =>
      exact tells_walk _ _ (by simpa [Tells, stage, Stage.isUnderway] using tells)
    case rowNotice.some | batchNotice.some => exact tells_fail e _
    case batchNotice.none | finalNotice.none | finalNotice.some =>
      simpa [Tells, stage, Stage.isUnderway] using tells
    all_goals exact tells
  | proceed =>
    cases stage : e.stage <;> simp only [Engine.move, proceed, stage]
    case turn => exact tells_nextBatch (by simpa [Tells, stage, Stage.isUnderway] using tells)
    case release row stop =>
      split_ifs
      · exact tells_walk _ _ (by simpa [Tells, stage, Stage.isUnderway] using tells)
      · exact tells
    all_goals exact tells
  | interrupt =>
    cases stage : e.stage <;> simp only [Engine.move, interrupt, stage]
    case call | turn | release => exact tells_interrupted _
    all_goals exact tells
  | operate action => simpa [Tells, Engine.move] using tells
  | save => simpa [Tells, Engine.move] using tells
  | tick now => exact tells

/-- What a start does, in three cases: a run is active, or the mapping cannot be used, or a run
begins. -/
theorem start_cases (e : Engine) (job : Job) (row : Int) :
    e.state.status.isActive = true ∧ e.start job row = (.error .active, e) ∨
    e.state.status.isActive = false ∧ (∃ error,
      job.mapping.validate job.file.headers = .error error ∧
        e.start job row = (.error (.mapping error), e.setStatus .idle)) ∨
    e.state.status.isActive = false ∧ (∃ mapping dropped e₀,
      job.mapping.validate job.file.headers = .ok (mapping, dropped) ∧
        Begun e (planOf job mapping) (resumeRow job.file row) e₀ ∧
        e.start job row = (.ok (), e₀.nextBatch)) := by
  cases active : e.state.status.isActive with
  | true => exact .inl ⟨rfl, by simp [start, active]⟩
  | false =>
    cases valid : job.mapping.validate job.file.headers with
    | error error =>
      refine .inr (.inl ⟨rfl, error, rfl, ?_⟩)
      have settled : (if e.state.status.isTerminal then e.setStatus .idle else e)
          = e.setStatus .idle := by
        split_ifs with terminal
        · rfl
        · rw [← Status.eq_idle active (by simpa using terminal)]
          rfl
      simp [start, active, valid, settled]
    | ok result =>
      obtain ⟨e₀, begun, started⟩ := start_valid e job row active valid
      exact .inr (.inr ⟨rfl, _, _, e₀, rfl, begun, started⟩)

/-- In every state that an engine comes to its status tells whether it waits within a run. -/
theorem Arises.tells (arises : Arises e) : e.Tells := by
  induction arises with
  | made => rfl
  | @started e _ job row ih =>
    obtain ⟨_, started⟩ | ⟨idle, _, _, started⟩ | ⟨_, _, _, e₀, _, begun, started⟩ :=
      e.start_cases job row
    · rw [started]
      exact ih
    · rw [started]
      exact idle.symm.trans ih
    · rw [started]
      exact tells_nextBatch (by simp [begun.state, reset, Status.isActive])
  | moved _ move ih => exact ih.move move
  | stored _ _ ih | noted _ _ ih => exact ih

/-- A start is refused for the sake of a run exactly while there is one, and then changes nothing.
Otherwise it is refused exactly if the email has no header of the file; then nothing is delivered or
stored, and what the engine keeps of its latest run stays as it is but for the status, which becomes
that of an engine at rest. In every other case a run begins with nothing counted and nothing logged. -/
theorem start_atomic (arises : Arises e) (job : Job) (row : Int) :
    let email? := Entries.get? Attribute.emailKey job.mapping
    let headers := job.file.headers
    let answer := (e.start job row).1
    let after := (e.start job row).2
    (e.state.status.isActive = true ↔ e.stage.isUnderway = true) ∧
      ((answer = .error .active ↔ e.stage.isUnderway = true) ∧
        (answer = .error .active → after = e)) ∧
      (((∃ error, answer = .error (.mapping error)) ↔ e.stage.isUnderway = false ∧
          (email? = none ∨ email? = some [] ∨ ∃ header, email? = some header ∧ header ∉ headers)) ∧
        ∀ error, answer = .error (.mapping error) →
          (e.state.status = .idle ∨ e.state.status.isTerminal = true) ∧
            after = { e with state := { e.state with status := .idle } } ∧
            after.snapshot? = e.snapshot? ∧ e.since after = []) ∧
      ((answer = .ok () ↔ e.stage.isUnderway = false ∧
          ∃ header, email? = some header ∧ header ≠ [] ∧ header ∈ headers) ∧
        (answer = .ok () →
          after.job? = some (planOf job (job.mapping.restrict headers).1) ∧
            after.state.counts = (0, 0, []) ∧
            ∃ state, .started job.file.name state ∈ e.since after ∧ state.status = .running ∧
              state.row = (resumeRow job.file row : Int) ∧ state.counts = (0, 0, []) ∧
              state.fatal = none)) := by
  intro email? headers answer after
  have tells : e.state.status.isActive = e.stage.isUnderway := arises.tells
  rw [← Mapping.isRunnable_eq_false_iff, ← Mapping.isRunnable_iff, ← tells]
  simp only [answer, after]
  obtain ⟨active, started⟩ | ⟨idle, error, invalid, started⟩ |
    ⟨idle, mapping, dropped, e₀, valid, begun, started⟩ := e.start_cases job row
  · simp [started, active]
  · have unusable : job.mapping.isRunnable headers = false := by
      by_contra usable
      have valid := Mapping.validate_eq_ok_iff.mpr ⟨by simpa using usable, rfl⟩
      cases invalid.symm.trans valid
    have resting : e.state.status = .idle ∨ e.state.status.isTerminal = true :=
      or_iff_not_imp_right.mpr fun going => Status.eq_idle idle (by simpa using going)
    simp [started, idle, unusable, resting, setStatus, since, snapshot?]
  · obtain ⟨usable, kept⟩ : job.mapping.isRunnable headers = true ∧
        (mapping, dropped) = job.mapping.restrict headers := Mapping.validate_eq_ok_iff.mp valid
    obtain rfl : mapping = (job.mapping.restrict headers).1 := congrArg Prod.fst kept
    have told := started_mem_since e job row idle valid
    obtain ⟨_, course⟩ := Course.of_nextBatch _ (.begun begun)
    have counts : e₀.nextBatch.state.counts = (0, 0, []) := by
      rw [counts_nextBatch, begun.state]
      rfl
    rw [started] at told ⊢
    refine ⟨trivial, ⟨by simp [idle], fun refused => ?_⟩,
      ⟨by simp [usable], fun error refused => ?_⟩, by simp [idle, usable], fun _ => ?_⟩
    · cases refused
    · cases refused
    · exact ⟨course.placed.job, counts, _, told, rfl, rfl, rfl, rfl⟩

/-- Within a run a start changes nothing. After a run that failed behind its first row, a start whose
email has no column keeps what that run counted, and one that can run counts afresh. -/
theorem start_atomic_sample :
    let run := (sample.start pairJob 0).2.move (.answer .accepted)
    let failed := run.move (.acknowledge (some ⟨"ValueError", "lost"⟩))
    let missing := { pairJob with mapping := [(Attribute.emailKey, "mail")] }
    ((run.start pairJob 0).1 = .error .active ∧ (run.start pairJob 0).2 = run) ∧
      ((∃ error, (failed.start missing 0).1 = .error (.mapping error)) ∧
        (failed.start missing 0).2.state.status = .idle ∧
        (failed.start missing 0).2.state.counts = (1, 0, [])) ∧
      (failed.start pairJob 0).1 = .ok () ∧
      (failed.start pairJob 0).2.state.counts = (0, 0, []) := by
  intro run failed missing
  have begun : Arises run := (Arises.started (.made _ _ _ _) pairJob 0).moved _
  have ended : Arises failed := begun.moved _
  obtain ⟨_, ⟨refused, untouched⟩, _⟩ := start_atomic begun pairJob 0
  obtain ⟨_, _, ⟨unusable, kept⟩, _⟩ := start_atomic ended missing 0
  obtain ⟨_, _, _, usable, fresh⟩ := start_atomic ended pairJob 0
  have active := refused.mpr (by decide +kernel)
  have ⟨error, invalid⟩ := unusable.mpr
    ⟨by decide +kernel, .inr (.inr ⟨"mail", by decide +kernel, by decide +kernel⟩)⟩
  have idled := (kept error invalid).2.1
  have begins := usable.mpr
    ⟨by decide +kernel, "email", by decide +kernel, by decide, by decide +kernel⟩
  refine ⟨⟨active, untouched active⟩, ⟨⟨error, invalid⟩, ?_, ?_⟩, begins, (fresh begins).2.1⟩
  · rw [idled]
  · rw [idled]
    decide +kernel

end Engine
end Intake
