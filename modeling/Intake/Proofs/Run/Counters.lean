import Mathlib.Data.Nat.Cast.Order.Field
import Intake.Proofs.Number.Rounding
import Intake.Proofs.Run.Deliveries
import Intake.Proofs.Run.Ending

/-! The counters of a run keep their bounds throughout: its row goes up from its first row by whole
batches, its batch is one of the batches of its file, and what it counts are rows of the batches that
it has begun. -/
namespace Intake

namespace Point

def stop? (e : Engine) : Point → Option Nat
  | batch => none
  | row _ stop => some stop
  | stage =>
    match e.stage with
    | .call _ stop _ | .rowNotice _ stop | .release _ stop => some stop
    | _ => none

def counted (e : Engine) : Point → Int
  | batch => e.state.row
  | row next _ => next
  | stage =>
    match e.stage with
    | .call current _ _ | .release current _ => current
    | .rowNotice current _ => current + 1
    | .idle | .batchNotice | .turn => e.state.row
    | .finalNotice | .ended _ => min (e.state.row + e.batchSize) e.state.totalRows

end Point

namespace Engine

/-- The batches of a number of rows that floating point can show are the quotient rounded up. -/
theorem batches_eq {batchSize rows : Nat} (positive : 0 < batchSize) (small : batchSize ≤ 2 ^ 53)
    (few : rows ≤ 2 ^ 53) : batches batchSize rows = ⌈(rows : ℚ) / batchSize⌉ := by
  obtain rfl | some := Nat.eq_zero_or_pos rows
  · simp [batches]
  · rw [batches, if_neg some.ne', Binary64.ceil?_ofQuotient some positive few small]
    rfl

structure Paced (before : Engine) (plan : Job) (first : Nat) (p : Point) (e : Engine) : Prop where
  batchSize : e.batchSize = before.batchSize
  totalBatches : e.state.totalBatches = batches before.batchSize plan.file.totalRows
  aligned : (∃ k : Nat, e.state.row = first + k * before.batchSize) ∨
    e.state.row = plan.file.totalRows
  stop : ∀ stop ∈ p.stop? e, (stop : Int) = min (e.state.row + e.batchSize) e.state.totalRows
  numbered : 0 ≤ e.state.batch ∧ e.state.batch ≤ e.state.totalBatches
  counted : e.state.success + e.state.failure ≤ p.counted e - first

/-- A quotient of rows before the last one, rounded down, is less than that of all of them, rounded
up. -/
theorem div_add_one_le_ceil {batchSize row total : Nat} (positive : 0 < batchSize)
    (left : row < total) : ((row / batchSize + 1 : Nat) : Int) ≤ ⌈(total : ℚ) / batchSize⌉ := by
  have divisor : (0 : ℚ) < batchSize := by exact_mod_cast positive
  rw [Nat.cast_add, Nat.cast_one, Int.add_one_le_iff, Int.lt_ceil]
  calc (((row / batchSize : Nat) : Int) : ℚ) ≤ (row : ℚ) / batchSize := by
        exact_mod_cast Nat.cast_div_le
    _ < (total : ℚ) / batchSize := by
        exact div_lt_div_of_pos_right (by exact_mod_cast left) divisor

namespace Paced
variable {before e e' : Engine} {plan : Job} {first : Nat} {p p' : Point}

/-- A run stays in pace where its row and the numbers of its batches stay, if it counts no more than
it may. -/
theorem carry (paced : Paced before plan first p e)
    (same : e'.batchSize = e.batchSize ∧ e'.state.row = e.state.row ∧
      e'.state.totalRows = e.state.totalRows ∧ e'.state.batch = e.state.batch ∧
      e'.state.totalBatches = e.state.totalBatches)
    (stop : ∀ stop ∈ p'.stop? e', stop ∈ p.stop? e)
    (counted : e'.state.success + e'.state.failure + p.counted e
      ≤ e.state.success + e.state.failure + p'.counted e') : Paced before plan first p' e' := by
  obtain ⟨batchSize, row, totalRows, batch, totalBatches⟩ := same
  refine ⟨batchSize.trans paced.batchSize, totalBatches.trans paced.totalBatches,
    row ▸ paced.aligned, fun last here => ?_, ?_, ?_⟩
  · rw [batchSize, row, totalRows]
    exact paced.stop last (stop last here)
  · rw [batch, totalBatches]
    exact paced.numbered
  · have most := paced.counted
    omega

/-- A batch ends by whole batches after the first row, or at the last one. -/
theorem aligned_stop {stop : Nat} (paced : Paced before plan first p e)
    (total : e.state.totalRows = plan.file.totalRows)
    (ends : (stop : Int) = min (e.state.row + e.batchSize) e.state.totalRows) :
    (∃ k : Nat, (stop : Int) = first + k * before.batchSize) ∨
      (stop : Int) = plan.file.totalRows := by
  have size := paced.batchSize
  obtain ⟨k, here⟩ | last := paced.aligned
  · obtain whole | short := le_total (e.state.row + e.batchSize) e.state.totalRows
    · refine .inl ⟨k + 1, ?_⟩
      rw [ends, min_eq_left whole, here, size]
      push_cast
      ring
    · exact .inr (by omega)
  · exact .inr (by omega)

/-- What a run has counted are rows of the batches that it has begun. -/
theorem counted_le (paced : Paced before plan first p e) (placed : Placed before plan first p e) :
    p.counted e ≤ min (e.state.row + e.batchSize) e.state.totalRows := by
  have size := e.batchSize_pos
  have total := placed.total
  have high := placed.high
  have fits := placed.fits
  have stop := paced.stop
  cases p with
  | batch =>
    simp only [Point.counted]
    omega
  | row next stop' =>
    have ends := stop stop' rfl
    simp only [Point.Fits, Point.counted] at fits ⊢
    omega
  | stage =>
    cases stage : e.stage <;>
      simp only [Point.Fits, Point.counted, Point.stop?, stage, Option.mem_def, Option.some.injEq,
        forall_eq', reduceCtorEq] at fits stop ⊢ <;> omega

/-- A run ends in pace. -/
theorem ending (paced : Paced before plan first p e) (placed : Placed before plan first p e)
    (same : e'.batchSize = e.batchSize ∧ e'.state.row = e.state.row ∧
      e'.state.totalRows = e.state.totalRows ∧ e'.state.batch = e.state.batch ∧
      e'.state.totalBatches = e.state.totalBatches)
    (success : e'.state.success = e.state.success) (failure : e'.state.failure = e.state.failure)
    (isOver : e'.IsOver) : Paced before plan first .stage e' := by
  have most := paced.counted_le placed
  have last : Point.stage.counted e' = min (e.state.row + e.batchSize) e.state.totalRows := by
    obtain stage | ⟨_, stage⟩ := isOver <;> simp [Point.counted, stage, same]
  refine paced.carry same ?_ (by omega)
  obtain stage | ⟨_, stage⟩ := isOver <;> simp [Point.stop?, stage]

end Paced

namespace Course
variable {before e : Engine} {plan : Job} {first : Nat} {moves : List Move} {new : List Event}
  {p : Point}

theorem paced (course : Course before plan first moves new p e) (small : before.batchSize ≤ 2 ^ 53)
    (few : plan.file.totalRows ≤ 2 ^ 53) : Paced before plan first p e := by
  induction course with
  | begun begun =>
    have within : (first : ℚ) / before.batchSize ≤ (plan.file.totalRows : ℚ) / before.batchSize :=
      div_le_div_of_nonneg_right (by exact_mod_cast begun.first_le) (Nat.cast_nonneg _)
    refine ⟨begun.batchSize, ?_, .inl ⟨0, ?_⟩, ?_, ?_, ?_⟩ <;>
      simp only [begun.state, reset, Point.stop?, Point.counted]
    · simp
    · simp
    · rw [batches_eq before.batchSize_pos small (begun.first_le.trans few),
        batches_eq before.batchSize_pos small few]
      exact ⟨Int.ceil_nonneg (by positivity), Int.ceil_mono within⟩
    · simp
  | @opened _ _ e stop course left going ends batch counted ih =>
    have size := before.batchSize_pos
    have count := ih.counted
    have placed := course.placed
    have total := placed.total
    have low := placed.low
    refine ⟨ih.batchSize, ih.totalBatches, ih.aligned, ?_, ?_, ?_⟩
    · simp only [Point.stop?, Option.mem_def, Option.some.injEq, forall_eq', note_fields]
      omega
    · simp only [note_fields, counted, ih.totalBatches, ih.batchSize, batches_eq size small few]
      exact ⟨Int.natCast_nonneg _, div_add_one_le_ceil size (by omega)⟩
    · simp only [Point.counted, note_fields] at count ⊢
      omega
  | @finished _ _ e course ending ih =>
    exact ih.ending course.placed (by simp) (by simp) (by simp) (.inl (by simp))
  | held course inside paused ih =>
    exact ih.carry (by simp) (by simp [Point.stop?]) (by simp [Point.counted])
  | stopped course inside cancelling ih =>
    exact ih.ending course.placed (by simp) (by simp) (by simp) (.inl (by simp))
  | raised course inside unpaused going read ih =>
    exact ih.ending course.placed (by simp) (by simp) (by simp) (.inl (by simp))
  | skipped course inside unpaused going read blank ih =>
    exact ih.carry (by simp) (by simp [Point.stop?]) (by simp [Point.counted])
  | submitted course inside unpaused going read due ih =>
    exact ih.carry (by simp) (by simp [Point.stop?]) (by simp [Point.counted])
  | @closed _ _ e row stop course outside ih =>
    have ends := ih.stop stop rfl
    have count := ih.counted
    obtain ⟨_, _, inside, _⟩ := course.placed.fits
    refine ⟨by simpa using ih.batchSize, by simpa using ih.totalBatches, ?_, ?_, ?_, ?_⟩
    · simpa using ih.aligned_stop course.placed.total ends
    · simp [Point.stop?]
    · simpa using ih.numbered
    · simp only [Point.counted, closeBatch_fields] at count ⊢
      omega
  | accepted course called ih =>
    refine ih.carry (by simp [accepted_fields called]) ?_ ?_ <;>
      simp [Point.stop?, Point.counted, called, accepted_fields called]
    omega
  | rejected course called failure ih =>
    refine ih.carry (by simp [rejected_fields called, RunState.reject]) ?_ ?_ <;>
      simp [Point.stop?, Point.counted, called, rejected_fields called, RunState.reject]
    omega
  | cutOff course called move cut ih =>
    exact ih.ending course.placed (by simp) (by simp) (by simp) (.inr ⟨.interrupted, by simp⟩)
  | interrupted course waiting ih =>
    exact ih.ending course.placed (by simp) (by simp) (by simp) (.inr ⟨.interrupted, by simp⟩)
  | returned course noticed ih =>
    exact ih.carry (by simp) (by simp [Point.stop?, noticed]) (by simp [Point.counted, noticed])
  | yielded course noticed ih =>
    exact ih.carry (by simp) (by simp [Point.stop?, noticed]) (by simp [Point.counted, noticed])
  | crashed course noticed failure ih =>
    exact ih.ending course.placed (by simp) (by simp) (by simp) (.inl (by simp))
  | ended course noticed failure? outcome ih =>
    exact ih.ending course.placed (by simp) (by simp) (by simp) (.inr ⟨_, rfl⟩)
  | continued course waiting ih =>
    exact ih.carry (by simp) (by simp [Point.stop?]) (by simp [Point.counted, waiting])
  | released course waiting signal ih =>
    exact ih.carry (by simp) (by simp [Point.stop?, waiting]) (by simp [Point.counted, waiting])
  | operated course action ih =>
    exact ih.carry (by simp) (by simp [Point.stop?]) (by simp [Point.counted])
  | saved course ih => exact ih.carry (by simp) (by simp [Point.stop?]) (by simp [Point.counted])
  | ticked course now shown ih =>
    exact ih.carry (by simp) (by simp [Point.stop?]) (by simp [Point.counted])

end Course

/-! The row of a run never goes back. -/

theorem row_le_walk (e : Engine) (row stop : Nat) (within : e.state.row ≤ stop) :
    e.state.row ≤ (e.walk row stop).state.row := by
  fun_induction walk e row stop with
  | case1 e row inside paused => rfl
  | case2 e row inside unpaused cancelling => simp
  | case3 e row inside unpaused going discards noted error => simp [noted]
  | case4 e row inside unpaused going discards noted contact due => rfl
  | case5 e row inside unpaused going discards noted contact blank read ih => exact ih within
  | case6 e row outside => simpa using within

theorem row_le_nextBatch (e : Engine) : e.state.row ≤ e.nextBatch.state.row := by
  unfold nextBatch
  split_ifs with left
  · refine row_le_walk _ _ _ ?_
    have size := e.batchSize_pos
    simp only [note_fields]
    omega
  · simp

theorem Placed.row_le_move {before e : Engine} {plan : Job} {first : Nat}
    (placed : Placed before plan first .stage e) (move : Move) (admitted : e.admits move = true) :
    e.state.row ≤ (e.move move).state.row := by
  have fits := placed.fits
  cases move with
  | answer reply =>
    cases stage : e.stage <;> simp [admits, stage] at admitted
    cases reply <;> simp [Engine.move, answer, stage, notify, RunState.reject]
  | acknowledge failure? =>
    cases stage : e.stage <;> simp only [admits, stage, Bool.false_eq_true] at admitted <;>
      cases failure? <;> simp only [Point.Fits, stage, Engine.move, acknowledge] at fits ⊢
    case rowNotice.none row stop => exact row_le_walk e (row + 1) stop (by omega)
    all_goals simp
  | proceed =>
    cases stage : e.stage <;> simp only [admits, stage, Bool.false_eq_true] at admitted
    case turn => simpa [Engine.move, proceed, stage] using row_le_nextBatch e
    case release row stop =>
      simp only [Point.Fits, stage] at fits
      simpa [Engine.move, proceed, stage, admitted] using row_le_walk e row stop (by omega)
  | interrupt =>
    cases stage : e.stage <;> simp [Engine.move, interrupt, stage]
  | operate action => simp [Engine.move]
  | save => simp [Engine.move]
  | tick now => rfl

theorem Course.row_le {before start e : Engine} {plan : Job} {first : Nat} {moves more : List Move}
    {new : List Event} (course : Course before plan first moves new .stage start)
    (run : Moves start more e) : start.state.row ≤ e.state.row := by
  induction run with
  | none => rfl
  | next move run admitted ih =>
    obtain ⟨_, there⟩ := course.extend run
    exact ih.trans (there.placed.row_le_move move admitted)

theorem Placed.row_of_completed {before e : Engine} {plan : Job} {first : Nat}
    (placed : Placed before plan first .stage e) (completed : e.state.status = .completed) :
    e.state.row = plan.file.totalRows := by
  have fits := placed.fits
  obtain stage | ⟨_, stage⟩ := placed.isOver (by simp [completed, Status.isTerminal]) <;>
    simp only [Point.Fits, stage] at fits <;> exact fits.2 completed

/-- The counters of a run keep their bounds in every state that it reaches. Its row goes up from the
first one to the last one by whole batches, and stands on the last one once the run is completed; its
batch is one of the batches of the file, which are its rows by the size of a batch, rounded up; and
what it counts are rows from the first one to the end of the batch that it is in. The run comes to
its end within a bounded number of steps, unless it stays paused. -/
theorem start_counters (before : Engine) (job : Job) (row : Int) {mapping : Mapping}
    {dropped : List Text} (idle : before.state.status.isActive = false)
    (valid : job.mapping.validate job.file.headers = .ok (mapping, dropped))
    (small : before.batchSize ≤ 2 ^ 53) (few : job.file.totalRows ≤ 2 ^ 53) :
    (before.start job row).1 = .ok () ∧
      ∀ moves e, Moves (before.start job row).2 moves e →
        let first := resumeRow job.file row
        let total := job.file.totalRows
        ((first : Int) ≤ e.state.row ∧ e.state.row ≤ total ∧ e.state.totalRows = total) ∧
          ((∃ k : Nat, e.state.row = first + k * before.batchSize) ∨ e.state.row = total) ∧
          (0 ≤ e.state.batch ∧ e.state.batch ≤ e.state.totalBatches ∧
            e.state.totalBatches = ⌈(total : ℚ) / before.batchSize⌉) ∧
          (0 ≤ e.state.success ∧ 0 ≤ e.state.failure ∧
            e.state.success + e.state.failure
              ≤ min (e.state.row + before.batchSize) total - first) ∧
          (e.state.status = .completed → e.state.row = total) ∧
          (∀ more e', Moves e more e' → e.state.row ≤ e'.state.row) ∧
          moves.countP Move.isStep ≤ 6 * (total - first) + 3 ∧
          ((∃ outcome, e.stage = .ended outcome) ∨ e.IsHeld ∨ e.Awaits) := by
  obtain ⟨e₀, begun, started⟩ := start_valid before job row idle valid
  rw [started]
  refine ⟨rfl, fun moves e reached => ?_⟩
  obtain ⟨new, course⟩ := Course.of_moves begun reached
  have placed := course.placed
  have paced := course.paced small few
  obtain ⟨_, tally⟩ := course.tallied
  have most := paced.counted_le placed
  have count := paced.counted
  rw [paced.batchSize, placed.total] at most
  refine ⟨⟨placed.low, placed.high, placed.total⟩, paced.aligned,
    ⟨paced.numbered.1, paced.numbered.2, ?_⟩, ⟨?_, ?_, ?_⟩, placed.row_of_completed,
    fun more e' run => course.row_le run, course.steps_le, course.awaits⟩
  · rw [paced.totalBatches]
    exact batches_eq before.batchSize_pos small few
  · rw [tally.success]
    exact Int.natCast_nonneg _
  · rw [tally.failure]
    exact Int.natCast_nonneg _
  · exact count.trans (Int.sub_le_sub_right most _)

def fiveJob : Job :=
  { sampleJob with
    file := ⟨"people.csv", ["email"], ["ann", "bob", "cid", "dan", "eve"].map ([·]), 27⟩ }

/-- In the second batch of three, a run from the second row on has counted the two rows of its first
batch and one more. -/
theorem start_counters_sample :
    ∃ moves e, Moves (sample.start fiveJob 1).2 moves e ∧ e.state.row = 3 ∧
      e.state.success + e.state.failure = 3 ∧ e.state.totalBatches = ⌈(5 : ℚ) / 2⌉ ∧
      ∀ more e', Moves e more e' → 3 ≤ e'.state.row := by
  let moves : List Move := [.answer .accepted, .acknowledge none,
    .answer (.rejected ⟨"ValueError", ""⟩), .acknowledge none, .acknowledge none, .proceed,
    .answer .accepted]
  have reached : ((sample.start fiveJob 1).2.after? moves).map
      (fun e => (e.state.row, e.state.success + e.state.failure)) = some (3, 3) := by
    decide +kernel
  obtain ⟨e, reached, here⟩ := Option.map_eq_some_iff.mp reached
  obtain ⟨row, count⟩ := Prod.mk.inj here
  have run := reaches_iff.mpr reached
  have bounds := (start_counters sample fiveJob 1 rfl rfl (by decide) (by decide)).2 moves e run
  obtain ⟨_, _, ⟨_, _, batches⟩, _, _, onward, _⟩ := bounds
  exact ⟨moves, e, run, row, count, batches, row ▸ onward⟩

end Engine
end Intake
