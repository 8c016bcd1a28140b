import Intake.Proofs.Run.Course
import Intake.Proofs.Run.Rows

/-! Where a run stands in its file, and with which status: the row of a run never leaves the rows
from its first to its last, a run that has not come to its last notice is active, and a completed
one has no row left. -/
namespace Intake

def Point.Fits (plan : Job) (e : Engine) : Point → Prop
  | batch => e.state.status.isActive = true
  | row next stop =>
    e.state.status.isActive = true ∧ e.state.row ≤ next ∧ next ≤ stop ∧
      stop ≤ plan.file.totalRows
  | stage =>
    match e.stage with
    | .idle => False
    | .call current stop contact =>
      e.state.status.isActive = true ∧ e.state.row ≤ current ∧ current < stop ∧
        stop ≤ plan.file.totalRows ∧ (∃ now, plan.contactAt now current = .ok contact) ∧
        contact.email?.isSome = true
    | .rowNotice current stop | .release current stop =>
      e.state.status.isActive = true ∧ e.state.row ≤ current ∧ current < stop ∧
        stop ≤ plan.file.totalRows
    | .batchNotice | .turn => e.state.status.isActive = true
    | .finalNotice | .ended _ =>
      e.state.status.isTerminal = true ∧
        (e.state.status = .completed → e.state.row = plan.file.totalRows)

namespace Engine

structure Placed (before : Engine) (plan : Job) (first : Nat) (p : Point) (e : Engine) : Prop where
  workspace : e.workspace = before.workspace
  job : e.job? = some plan
  total : e.state.totalRows = plan.file.totalRows
  low : first ≤ e.state.row
  high : e.state.row ≤ plan.file.totalRows
  fits : p.Fits plan e

namespace Placed
variable {before e e' : Engine} {plan : Job} {first : Nat} {p p' : Point}

private theorem carry (placed : Placed before plan first p e) (fits : p'.Fits plan e')
    (workspace : e'.workspace = e.workspace) (job : e'.job? = e.job?)
    (total : e'.state.totalRows = e.state.totalRows) (row : e'.state.row = e.state.row) :
    Placed before plan first p' e' :=
  ⟨workspace.trans placed.workspace, job.trans placed.job, total.trans placed.total,
    row.symm ▸ placed.low, row.symm ▸ placed.high, fits⟩

private theorem stand (placed : Placed before plan first p e) (fits : p'.Fits plan e')
    (workspace : e'.workspace = e.workspace) (job : e'.job? = e.job?) (state : e'.state = e.state) :
    Placed before plan first p' e' :=
  placed.carry fits workspace job (state ▸ rfl) (state ▸ rfl)

private theorem halt (placed : Placed before plan first p e) (workspace : e'.workspace = e.workspace)
    (job : e'.job? = e.job?) (total : e'.state.totalRows = e.state.totalRows)
    (row : e'.state.row = e.state.row)
    (stage : e'.stage = .finalNotice ∨ ∃ outcome, e'.stage = .ended outcome)
    (terminal : e'.state.status.isTerminal = true) (unfinished : e'.state.status ≠ .completed) :
    Placed before plan first .stage e' := by
  refine placed.carry ?_ workspace job total row
  obtain stage | ⟨outcome, stage⟩ := stage <;> simp [Point.Fits, stage, terminal, unfinished]

private theorem finish (placed : Placed before plan first .batch e)
    (ending : ¬ (e.state.row < e.state.totalRows ∧ e.state.status ≠ .cancelling)) :
    Placed before plan first .stage e.finish := by
  have total := placed.total
  have high := placed.high
  refine placed.carry ?_ (by simp) (by simp) (by simp) (by simp)
  by_cases cancelling : e.state.status = .cancelling
  · simp [Point.Fits, cancelling, Status.isTerminal]
  · have last : e.state.row = plan.file.totalRows := by
      have none : ¬ e.state.row < e.state.totalRows := fun left => ending ⟨left, cancelling⟩
      omega
    simp [Point.Fits, cancelling, last, Status.isTerminal]

private theorem close {row stop : Nat} (placed : Placed before plan first (.row row stop) e)
    (outside : ¬ row < stop) : Placed before plan first .stage (e.closeBatch stop) := by
  obtain ⟨workspace, job, total, low, high, active, begun, ended, within⟩ := placed
  refine ⟨by simpa, by simpa, by simpa, ?_, ?_, ?_⟩
  · simp
    omega
  · simp
    omega
  · simpa [Point.Fits] using active

private theorem called {row stop : Nat} {contact : Contact} (placed : Placed before plan first .stage e)
    (called : e.stage = .call row stop contact) :
    e.state.status.isActive = true ∧ e.state.row ≤ row ∧ row < stop ∧ stop ≤ plan.file.totalRows := by
  have fits := placed.fits
  simp only [Point.Fits, called] at fits
  exact ⟨fits.1, fits.2.1, fits.2.2.1, fits.2.2.2.1⟩

private theorem remain (placed : Placed before plan first .stage e)
    (workspace : e'.workspace = e.workspace) (job : e'.job? = e.job?)
    (total : e'.state.totalRows = e.state.totalRows) (row : e'.state.row = e.state.row)
    (stage : e'.stage = e.stage) (active : e'.state.status.isActive = e.state.status.isActive)
    (terminal : e'.state.status.isTerminal = e.state.status.isTerminal)
    (completed : e'.state.status = .completed ↔ e.state.status = .completed) :
    Placed before plan first .stage e' := by
  refine placed.carry ?_ workspace job total row
  simpa [Point.Fits, stage, active, terminal, completed, row] using placed.fits

end Placed

namespace Course
variable {before e : Engine} {plan : Job} {first : Nat} {moves : List Move} {new : List Event}
  {p : Point}

theorem placed (course : Course before plan first moves new p e) :
    Placed before plan first p e := by
  induction course with
  | begun begun =>
    obtain ⟨workspace, _, job, state, _, _, _, _, _, within⟩ := begun
    refine ⟨workspace, job, ?_, ?_, ?_, ?_⟩ <;>
      simp [Point.Fits, state, reset, Status.isActive, within]
  | @opened _ _ e stop _ left going ends batch counted ih =>
    have total := ih.total
    have low := ih.low
    exact ih.carry ⟨ih.fits, Int.self_le_toNat e.state.row, by omega, by omega⟩ rfl rfl rfl rfl
  | finished _ ending ih => exact ih.finish ending
  | held _ inside paused ih =>
    obtain ⟨active, begun, _, within⟩ := ih.fits
    exact ih.stand ⟨active, begun, inside, within⟩ rfl rfl rfl
  | stopped _ inside cancelling ih =>
    exact ih.halt (by simp) (by simp) (by simp) (by simp) (.inl (by simp))
      (by simp [cancelling, Status.isTerminal]) (by simp [cancelling])
  | raised _ inside _ _ _ ih =>
    exact ih.halt (by simp) (by simp) (by simp) (by simp) (.inl (by simp))
      (by simp [Status.isTerminal]) (by simp)
  | skipped _ inside _ _ _ _ ih =>
    obtain ⟨active, begun, _, within⟩ := ih.fits
    refine ih.carry ⟨by simpa, ?_, inside, within⟩ (by simp) (by simp) (by simp) (by simp)
    simp
    omega
  | @submitted _ _ e row stop discards contact _ inside _ _ read due ih =>
    obtain ⟨active, begun, _, within⟩ := ih.fits
    have built := contactAt_job ih.job row
    rw [read] at built
    exact ih.stand ⟨active, begun, inside, within, ⟨_, built.symm⟩, due⟩ rfl rfl rfl
  | closed _ outside ih => exact ih.close outside
  | accepted _ called ih =>
    obtain ⟨active, begun, inside, within⟩ := ih.called called
    have after := accepted_fields called
    exact ih.carry (by simp_all [Point.Fits]) (by simp [after]) (by simp [after]) (by simp [after])
      (by simp [after])
  | rejected _ called failure ih =>
    obtain ⟨active, begun, inside, within⟩ := ih.called called
    have after := @rejected_fields _ _ _ _ called failure
    exact ih.carry (by simp_all [Point.Fits, RunState.reject]) (by simp [after]) (by simp [after])
      (by simp [after, RunState.reject]) (by simp [after, RunState.reject])
  | cutOff _ called move cut ih =>
    exact ih.halt (by simp) (by simp) (by simp) (by simp) (.inr ⟨.interrupted, by simp⟩)
      (by simp [Status.isTerminal]) (by simp)
  | interrupted _ waiting ih =>
    exact ih.halt (by simp) (by simp) (by simp) (by simp) (.inr ⟨.interrupted, by simp⟩)
      (by simp [Status.isTerminal]) (by simp)
  | returned _ noticed ih =>
    have fits := ih.fits
    simp only [Point.Fits, noticed] at fits
    obtain ⟨active, begun, inside, within⟩ := fits
    exact ih.stand ⟨active, by omega, inside, within⟩ rfl rfl rfl
  | yielded _ noticed ih =>
    have fits := ih.fits
    simp only [Point.Fits, noticed] at fits
    exact ih.stand fits rfl rfl rfl
  | crashed _ noticed failure ih =>
    exact ih.halt (by simp) (by simp) (by simp) (by simp) (.inl (by simp))
      (by simp [Status.isTerminal]) (by simp)
  | ended _ noticed failure? outcome ih =>
    have fits := ih.fits
    simp only [Point.Fits, noticed] at fits
    exact ih.stand fits rfl rfl rfl
  | continued _ waiting ih =>
    have fits := ih.fits
    simp only [Point.Fits, waiting] at fits
    exact ih.stand fits rfl rfl rfl
  | released _ waiting signal ih =>
    have fits := ih.fits
    simp only [Point.Fits, waiting] at fits
    obtain ⟨active, begun, inside, within⟩ := fits
    exact ih.stand ⟨active, begun, inside.le, within⟩ rfl rfl rfl
  | operated _ action ih =>
    exact ih.remain (by simp) (by simp) (by simp) (by simp) (by simp) (by simp) (by simp) (by simp)
  | saved _ ih =>
    exact ih.remain (by simp) (by simp) (by simp) (by simp) (by simp) (by simp) (by simp) (by simp)
  | ticked _ now shown ih => exact ih.remain rfl rfl rfl rfl rfl rfl rfl Iff.rfl

end Course
end Engine
end Intake
