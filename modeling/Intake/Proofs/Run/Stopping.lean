import Intake.Proofs.Run.Ending
import Intake.Proofs.Run.Progress

/-! A run that is being stopped. It comes to its end and is cancelled, unless a notice fails
meanwhile, and the progress that is stored for it stays that of its row. -/
namespace Intake

def Event.isLapse : Event → Bool
  | stored (.saveFailed ..) | stored (.cleared _) | stored (.clearFailed ..) => true
  | _ => false

theorem ProgressStore.isLapse_clear (store : ProgressStore) (workspace fileName : Text) :
    (Event.stored (store.clear workspace fileName).1).isLapse = true := by
  unfold clear
  split <;> rfl

namespace Engine

def lapses (e : Engine) : Nat := e.journal.countP Event.isLapse

theorem lapses_le {e e' : Engine} (kept : e.journal <:+ e'.journal) : e.lapses ≤ e'.lapses :=
  kept.sublist.countP_le

theorem lapses_eq {e e' : Engine} (happened : List Event)
    (journal : e'.journal = happened ++ e.journal) (none : happened.countP Event.isLapse = 0) :
    e'.lapses = e.lapses := by
  simp [lapses, journal, none]

structure Stopping (plan : Job) (lapsed : Nat) (e : Engine) : Prop where
  job : e.job? = some plan
  status : e.state.status = .cancelling ∧ ¬ e.IsOver ∨ e.state.status = .cancelled ∧ e.IsOver
  since : lapsed ≤ e.lapses
  stored : e.lapses = lapsed → ∃ savedAt,
    e.store.Holds e.workspace plan.file.name (plan.progress e.state savedAt)

structure Shares (plan : Job) (e e' : Engine) : Prop where
  job : e'.job? = e.job?
  workspace : e'.workspace = e.workspace
  storage : e'.store.storage = e.store.storage
  progress : ∀ savedAt, plan.progress e'.state savedAt = plan.progress e.state savedAt
  lapses : e'.lapses = e.lapses

section
variable {plan : Job} {lapsed : Nat} {e e' : Engine}

namespace Stopping

theorem carry (stopping : Stopping plan lapsed e) (shares : Shares plan e e')
    (status : e'.state.status = .cancelling ∧ ¬ e'.IsOver ∨
      e'.state.status = .cancelled ∧ e'.IsOver) : Stopping plan lapsed e' := by
  refine ⟨shares.job.trans stopping.job, status, shares.lapses ▸ stopping.since, fun lossless => ?_⟩
  obtain ⟨savedAt, held⟩ := stopping.stored (shares.lapses ▸ lossless)
  refine ⟨savedAt, ?_⟩
  rw [ProgressStore.Holds, shares.storage, shares.workspace, shares.progress]
  exact held

/-- Saving stores the progress of a run, unless it lapses. -/
theorem of_save (saving : Engine) (job : saving.job? = some plan) (since : lapsed ≤ saving.lapses)
    (shares : Shares plan saving.save e')
    (status : e'.state.status = .cancelling ∧ ¬ e'.IsOver ∨
      e'.state.status = .cancelled ∧ e'.IsOver) : Stopping plan lapsed e' := by
  have grown : saving.lapses ≤ saving.save.lapses := lapses_le (save_fields saving).2.2.2.2.2.2.1
  refine ⟨shares.job.trans (by simpa using job), status, ?_, fun lossless => ?_⟩
  · rw [shares.lapses]
    exact since.trans grown
  rw [shares.lapses] at lossless
  obtain ⟨error, next, failed, _⟩ | ⟨text, next, saved, held⟩ :=
    saving.store.save_cases saving.workspace plan.file.name (plan.progress saving.state 0)
  · have lost : saving.save.lapses = saving.lapses + 1 := by
      simp [save, saveProgress, snapshot?_eq job, failed, Event.isLapse, lapses, List.countP_cons]
    omega
  · have store : saving.save.store = next := by
      simp [save, saveProgress, snapshot?_eq job, saved]
    refine ⟨saving.store.now, ?_⟩
    obtain ⟨workspace, _, _, state, _⟩ := save_fields saving
    rw [ProgressStore.Holds, shares.storage, shares.workspace, shares.progress, store, workspace,
      state]
    exact held

end Stopping

theorem walk_of_cancelling (cancelling : e.state.status = .cancelling) (row stop : Nat) :
    e.walk row stop = if row < stop then e.finish else e.closeBatch stop := by
  rw [walk]
  simp [cancelling]

theorem nextBatch_of_cancelling (cancelling : e.state.status = .cancelling) :
    e.nextBatch = e.finish := by
  simp [nextBatch, cancelling]

namespace Stopping

private theorem finish (stopping : Stopping plan lapsed e)
    (cancelling : e.state.status = .cancelling) : Stopping plan lapsed e.finish :=
  stopping.carry ⟨rfl, rfl, rfl, fun _ => rfl, lapses_eq [_, _] rfl rfl⟩
    (.inr ⟨by simp [cancelling], .inl rfl⟩)

private theorem closeBatch (stopping : Stopping plan lapsed e)
    (cancelling : e.state.status = .cancelling) (stop : Nat) :
    Stopping plan lapsed (e.closeBatch stop) := by
  let closed := { e with state := { e.state with row := (stop : Int) } }
  refine of_save closed stopping.job stopping.since
    ⟨rfl, rfl, rfl, fun _ => rfl, lapses_eq [_] rfl rfl⟩ (.inl ⟨?_, ?_⟩)
  · simpa using cancelling
  · simp [IsOver]

private theorem interrupted (stopping : Stopping plan lapsed e) :
    Stopping plan lapsed e.interrupted :=
  of_save e stopping.job stopping.since
    ⟨rfl, rfl, rfl, fun _ => rfl, lapses_eq [_, _] rfl rfl⟩
    (.inr ⟨by simp, .inr ⟨.interrupted, by simp⟩⟩)

private theorem walk (stopping : Stopping plan lapsed e)
    (cancelling : e.state.status = .cancelling) (row stop : Nat) :
    Stopping plan lapsed (e.walk row stop) := by
  rw [walk_of_cancelling cancelling]
  split_ifs
  · exact stopping.finish cancelling
  · exact stopping.closeBatch cancelling stop

theorem note (stopping : Stopping plan lapsed e) {event : Event} (other : event.isLapse = false) :
    Stopping plan lapsed (e.note event) :=
  stopping.carry ⟨rfl, rfl, rfl, fun _ => rfl, lapses_eq [event] rfl (by simp [other])⟩ stopping.status

theorem cancelling (stopping : Stopping plan lapsed e) (going : ¬ e.IsOver) :
    e.state.status = .cancelling := by
  obtain ⟨status, _⟩ | ⟨_, isOver⟩ := stopping.status
  · exact status
  · exact absurd isOver going

theorem uncompleted (stopping : Stopping plan lapsed e) : e.state.status ≠ .completed := by
  obtain ⟨status, _⟩ | ⟨status, _⟩ := stopping.status <;> simp [status]

private theorem answer (stopping : Stopping plan lapsed e) (reply : Reply) :
    Stopping plan lapsed (e.answer reply) := by
  cases stage : e.stage <;> simp only [Engine.answer, stage]
  case call row stop contact =>
    have cancelling := stopping.cancelling (by simp [IsOver, stage])
    cases reply with
    | accepted =>
      exact stopping.carry ⟨rfl, rfl, rfl, fun _ => rfl, lapses_eq [_, _] rfl rfl⟩
        (.inl ⟨cancelling, by simp [IsOver, notify]⟩)
    | rejected failure =>
      exact stopping.carry ⟨rfl, rfl, rfl, fun _ => rfl, lapses_eq [_, _, _] rfl rfl⟩
        (.inl ⟨cancelling, by simp [IsOver, notify]⟩)
    | interrupted => exact (stopping.note rfl).interrupted
  all_goals exact stopping

private theorem acknowledge (stopping : Stopping plan lapsed e) :
    Stopping plan lapsed (e.acknowledge none) := by
  cases stage : e.stage <;> simp only [Engine.acknowledge, stage]
  case rowNotice row stop =>
    exact stopping.walk (stopping.cancelling (by simp [IsOver, stage])) _ _
  case batchNotice =>
    have cancelling := stopping.cancelling (by simp [IsOver, stage])
    exact stopping.carry ⟨rfl, rfl, rfl, fun _ => rfl, rfl⟩ (.inl ⟨cancelling, by simp [IsOver]⟩)
  case finalNotice =>
    obtain ⟨_, going⟩ | ⟨cancelled, _⟩ := stopping.status
    · exact absurd (.inl stage) going
    · exact stopping.carry ⟨rfl, rfl, rfl, fun _ => rfl, lapses_eq [_] rfl rfl⟩
        (.inr ⟨cancelled, .inr ⟨.finished, rfl⟩⟩)
  all_goals exact stopping

private theorem proceed (stopping : Stopping plan lapsed e) : Stopping plan lapsed e.proceed := by
  cases stage : e.stage <;> simp only [Engine.proceed, stage]
  case turn =>
    have cancelling := stopping.cancelling (by simp [IsOver, stage])
    rw [nextBatch_of_cancelling cancelling]
    exact stopping.finish cancelling
  case release row stop =>
    split_ifs
    · exact stopping.walk (stopping.cancelling (by simp [IsOver, stage])) _ _
    · exact stopping
  all_goals exact stopping

private theorem interrupt (stopping : Stopping plan lapsed e) : Stopping plan lapsed e.interrupt := by
  cases stage : e.stage <;> simp only [Engine.interrupt, stage]
  case call => exact (stopping.note rfl).interrupted
  case turn | release => exact stopping.interrupted
  all_goals exact stopping

private theorem operate (stopping : Stopping plan lapsed e) (action : Action) :
    Stopping plan lapsed (e.operate action).2 := by
  have ignored : (e.operate action).2 = (e.ignore action).2 := by
    obtain ⟨status, _⟩ | ⟨status, _⟩ := stopping.status <;> cases action <;>
      simp [Engine.operate, pause, resume, cancel, status]
  rw [ignored]
  exact stopping.note rfl

/-- What is stored and noted aside lets a run be stopped as before, where it stores other progress
only with a lapse. -/
theorem aside (stopping : Stopping plan lapsed e) {store : ProgressStore} {happened : List Event}
    (kept : happened.countP Event.isLapse = 0 → store = e.store) :
    Stopping plan lapsed { e with store, journal := happened ++ e.journal } := by
  obtain none | some := Nat.eq_zero_or_pos (happened.countP Event.isLapse)
  · rw [kept none]
    exact stopping.carry ⟨rfl, rfl, rfl, fun _ => rfl, lapses_eq happened rfl none⟩ stopping.status
  · have grown : ({ e with store, journal := happened ++ e.journal } : Engine).lapses
        = happened.countP Event.isLapse + e.lapses := List.countP_append
    have since := stopping.since
    exact ⟨stopping.job, stopping.status, by omega, fun lossless => by omega⟩

/-- A run that is being stopped goes on being stopped, or is cancelled. -/
theorem move (stopping : Stopping plan lapsed e) (move : Move)
    (unraised : ∀ failure, move ≠ .acknowledge (some failure)) :
    Stopping plan lapsed (e.move move) := by
  cases move with
  | answer reply => exact stopping.answer reply
  | acknowledge failure? =>
    cases failure? with
    | none => exact stopping.acknowledge
    | some failure => exact absurd rfl (unraised failure)
  | proceed => exact stopping.proceed
  | interrupt => exact stopping.interrupt
  | operate action => exact stopping.operate action
  | save =>
    exact of_save e stopping.job stopping.since ⟨rfl, rfl, rfl, fun _ => rfl, rfl⟩
      (by simpa [IsOver, Engine.move] using stopping.status)
  | tick now => exact stopping.carry ⟨rfl, rfl, rfl, fun _ => rfl, rfl⟩ stopping.status

/-- A run that is asked to stop where it has saved its progress is being stopped. -/
theorem of_active (job : e.job? = some plan) (active : e.state.status.isActive = true)
    (going : ¬ e.IsOver) : Stopping plan e.lapses (e.save.operate .cancel).2 := by
  have saved : e.lapses ≤ e.save.lapses := lapses_le (save_fields e).2.2.2.2.2.2.1
  have still : ¬ (e.save.operate .cancel).2.IsOver := by simpa [IsOver] using going
  obtain running | cancelling : (e.state.status = .running ∨ e.state.status = .paused) ∨
      e.state.status = .cancelling := by
    cases status : e.state.status <;> simp_all [Status.isActive]
  · have asked : (e.save.operate .cancel).2
        = ({ e.save.save with released := true }.enter .cancelling).notify := by
      simp [Engine.operate, cancel, running]
    rw [asked] at still ⊢
    exact of_save e.save (by simpa using job) saved
      ⟨rfl, rfl, rfl, fun _ => rfl, lapses_eq [_, _] rfl rfl⟩ (.inl ⟨rfl, still⟩)
  · have ignored : (e.save.operate .cancel).2 = (e.save.ignore .cancel).2 := by
      simp [Engine.operate, cancel, cancelling]
    rw [ignored] at still ⊢
    exact of_save e job (Nat.le_refl _) ⟨rfl, rfl, rfl, fun _ => rfl, lapses_eq [_] rfl rfl⟩
      (.inl ⟨by simpa [ignore] using cancelling, still⟩)

end Stopping

end
end Engine
end Intake
