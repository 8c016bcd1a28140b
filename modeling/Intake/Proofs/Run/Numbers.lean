import Intake.Proofs.Number.Binary64
import Intake.Proofs.Run.Position

/-! The numbers that a run saves with its progress are in range of floating point, so that they can
be read back. -/
namespace Intake

@[simp] theorem ProgressStore.save_now (store : ProgressStore) (workspace fileName : Text)
    (c : Checkpoint) : (store.save workspace fileName c).2.2.now = store.now := by
  simp only [save, saveDraft]
  cases (c.draft.toJson store.now).write Json.stored with
  | error error => rfl
  | ok text =>
    cases taken : store.storage.set (progressKey workspace fileName) text with
    | mk error? storage => cases error? <;> simp [taken]

namespace Engine

structure Bounded (before : Engine) (plan : Job) : Prop where
  rows : plan.file.totalRows < 2 ^ 63
  clock : (Binary64.ofInt? before.store.now).isSome = true

structure Shown (e : Engine) : Prop where
  batch : (Binary64.ofInt? e.state.batch).isSome = true
  totalBatches : (Binary64.ofInt? e.state.totalBatches).isSome = true
  now : (Binary64.ofInt? e.store.now).isSome = true

theorem Shown.carry {e e' : Engine} (shown : Shown e) (batch : e'.state.batch = e.state.batch)
    (totalBatches : e'.state.totalBatches = e.state.totalBatches)
    (now : e'.store.now = e.store.now) : Shown e' :=
  ⟨batch ▸ shown.batch, totalBatches ▸ shown.totalBatches, now ▸ shown.now⟩

/-- The number of batches is rounded up from a finite value, if it is not zero. -/
theorem isSome_batches (batchSize rows : Nat) :
    (Binary64.ofInt? (batches batchSize rows)).isSome = true := by
  unfold batches
  split
  · rfl
  · cases rounded : (Binary64.ofQuotient false rows batchSize).ceil? with
    | none => rfl
    | some count => exact Binary64.isSome_ofInt?_of_ceil? rounded

@[simp] theorem save_now (e : Engine) : e.save.store.now = e.store.now := by
  cases taken : e.snapshot? with
  | none => simp only [save, saveProgress, taken]
  | some checkpoint =>
    simp only [save, saveProgress, taken]
    have now := e.store.save_now e.workspace checkpoint.fileName checkpoint
    generalize e.store.save e.workspace checkpoint.fileName checkpoint = result at now ⊢
    exact now

@[simp] theorem fail_now (e : Engine) (failure : Failure) :
    (e.fail failure).store.now = e.store.now := by
  simp [fail, conclude, notify]

@[simp] theorem interrupted_now (e : Engine) : e.interrupted.store.now = e.store.now := by
  simp [interrupted, setStatus]

@[simp] theorem closeBatch_now (e : Engine) (stop : Nat) :
    (e.closeBatch stop).store.now = e.store.now := by
  simp [closeBatch, notify]

@[simp] theorem operate_now (e : Engine) (action : Action) :
    (e.operate action).2.store.now = e.store.now := by
  cases action <;> cases same : e.state.status <;>
    simp [operate, pause, resume, cancel, ignore, same, setStatus, notify]

/-- Throughout a run its numbers stay in range. -/
theorem Course.shown {before e : Engine} {plan : Job} {first : Nat} {moves : List Move}
    {new : List Event} {p : Point} (course : Course before plan first moves new p e)
    (bounded : Bounded before plan) : Shown e := by
  induction course with
  | begun begun =>
    refine ⟨?_, ?_, begun.store ▸ bounded.clock⟩ <;> simp [begun.state, reset, isSome_batches]
  | @opened _ _ e stop course left going ends batch counted ih =>
    refine ⟨?_, ih.totalBatches, ih.now⟩
    obtain ⟨_, _, total, low, high, _⟩ := course.placed
    have rows := bounded.rows
    have count : e.state.row.toNat / e.batchSize ≤ e.state.row.toNat := Nat.div_le_self _ _
    generalize e.state.row.toNat / e.batchSize = earlier at counted count
    have range : 0 ≤ batch ∧ batch < 2 ^ 64 := by omega
    exact Binary64.isSome_ofInt?_of_lt range.1 range.2
  | finished course ending ih => exact ih.carry (by simp) (by simp) (by simp)
  | held course inside paused ih => exact ih.carry rfl rfl rfl
  | stopped course inside cancelling ih => exact ih.carry (by simp) (by simp) (by simp)
  | raised course inside unpaused going read ih => exact ih.carry (by simp) (by simp) (by simp)
  | skipped course inside unpaused going read blank ih => exact ih.carry rfl rfl rfl
  | submitted course inside unpaused going read due ih => exact ih.carry rfl rfl rfl
  | closed course outside ih => exact ih.carry (by simp) (by simp) (by simp)
  | accepted course called ih => refine ih.carry ?_ ?_ ?_ <;> simp [accepted_fields called]
  | rejected course called failure ih =>
    refine ih.carry ?_ ?_ ?_ <;> simp [rejected_fields called, RunState.reject]
  | cutOff course called move cut ih => exact ih.carry (by simp) (by simp) (by simp)
  | interrupted course waiting ih => exact ih.carry (by simp) (by simp) (by simp)
  | returned course noticed ih => exact ih
  | yielded course noticed ih => exact ih.carry rfl rfl rfl
  | crashed course noticed failure ih => exact ih.carry (by simp) (by simp) (by simp)
  | ended course noticed failure? outcome ih => exact ih.carry rfl rfl rfl
  | continued course waiting ih => exact ih
  | released course waiting signal ih => exact ih
  | operated course action ih => exact ih.carry (by simp) (by simp) (by simp)
  | saved course ih => exact ih.carry (by simp) (by simp) (by simp)
  | ticked course now shown ih => exact ⟨ih.batch, ih.totalBatches, shown⟩

end Engine
end Intake
