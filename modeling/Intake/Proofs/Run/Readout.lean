import Intake.Proofs.Run.Counters
import Intake.Proofs.Run.Progress
import Intake.Proofs.Run.Restraint

/-! The batch that a run shows. A run numbers a batch by the whole batches before its first row, while
its batches are cut from the row that it resumes at; so at the end of a batch the number may stay one
behind the rows. -/
namespace Intake
namespace Engine

def lag (batchSize first row : Nat) : Int :=
  if 0 < row % batchSize ∧ row % batchSize ≤ first % batchSize then 1 else 0

theorem ceil_div {batchSize : Nat} (positive : 0 < batchSize) (rows : Nat) :
    ⌈(rows : ℚ) / batchSize⌉
      = (rows / batchSize : Nat) + if rows % batchSize = 0 then 0 else 1 := by
  have split := Nat.div_add_mod rows batchSize
  have rest := Nat.mod_lt rows positive
  have divisor : (0 : ℚ) < batchSize := by exact_mod_cast positive
  rw [Int.ceil_eq_iff, lt_div_iff₀ divisor, div_le_iff₀ divisor]
  generalize rows / batchSize = whole at split ⊢
  generalize rows % batchSize = excess at split rest ⊢
  subst split
  split_ifs with exact
  · subst exact
    push_cast
    constructor <;> linarith
  · have some : (0 : ℚ) < excess := by exact_mod_cast Nat.pos_of_ne_zero exact
    have short : (excess : ℚ) < batchSize := by exact_mod_cast rest
    push_cast
    constructor <;> linarith

/-- A batch behind the first row has a number. -/
theorem lag_lt_ceil {batchSize first row : Nat} (positive : 0 < batchSize) (beyond : first < row) :
    lag batchSize first row < ⌈(row : ℚ) / batchSize⌉ := by
  have split := Nat.div_add_mod row batchSize
  have low := Nat.mod_le first batchSize
  rw [ceil_div positive, lag]
  obtain none | some := Nat.eq_zero_or_pos (row / batchSize)
  · rw [none, Nat.mul_zero] at split
    split_ifs <;> omega
  · split_ifs <;> omega

/-- The number of a batch that is cut by whole batches from the first row on, compared with the
batches of the rows up to its end. -/
theorem number_eq {batchSize first start stop total k : Nat} (positive : 0 < batchSize)
    (aligned : start = first + k * batchSize) (left : start < total)
    (ends : stop = min (start + batchSize) total) :
    ((start / batchSize + 1 : Nat) : Int)
      = ⌈(stop : ℚ) / batchSize⌉ - lag batchSize first stop := by
  have excess : start % batchSize = first % batchSize := by
    rw [aligned, Nat.add_mul_mod_self_right]
  have rest := Nat.mod_lt start positive
  have split := Nat.div_add_mod start batchSize
  rw [ceil_div positive, lag, ← excess]
  have after : batchSize * (start / batchSize + 1) = batchSize * (start / batchSize) + batchSize :=
    Nat.mul_succ _ _
  have beyond : batchSize * (start / batchSize + 2)
      = batchSize * (start / batchSize) + 2 * batchSize := by ring
  -- The batch ends in the block that it begins in, or in the one after it.
  obtain inside | outside := Nat.lt_or_ge stop (batchSize * (start / batchSize + 1))
  · obtain ⟨whole, part⟩ : stop / batchSize = start / batchSize ∧
        stop % batchSize = stop - batchSize * (start / batchSize) :=
      (Nat.div_mod_unique positive).mpr ⟨by omega, by omega⟩
    rw [whole, part]
    split_ifs <;> omega
  · obtain ⟨whole, part⟩ : stop / batchSize = start / batchSize + 1 ∧
        stop % batchSize = stop - batchSize * (start / batchSize + 1) :=
      (Nat.div_mod_unique positive).mpr ⟨by omega, by omega⟩
    rw [whole, part]
    split_ifs <;> omega

/-- The batches of a number of rows that floating point can show are the quotient rounded up, unless
the size of a batch is so great that the quotient is rounded to zero. -/
theorem batches_of_short {batchSize rows : Nat} (positive : 0 < batchSize) (few : rows ≤ 2 ^ 53) :
    batches batchSize rows =
      if batchSize < rows * 2 ^ (Binary64.leastPlaces + 1) then ⌈(rows : ℚ) / batchSize⌉ else 0 := by
  obtain rfl | some := Nat.eq_zero_or_pos rows
  · simp [batches]
  have power : 2 ^ 53 < 2 ^ (Binary64.leastPlaces + 1) :=
    Nat.pow_lt_pow_right Nat.one_lt_two (by decide)
  obtain great | small := Nat.lt_or_ge (2 ^ 53) batchSize
  · have below : rows < batchSize := by omega
    rw [batches, if_neg some.ne', Binary64.ceil?_ofQuotient_of_lt some below, ceil_div positive,
      Nat.div_eq_of_lt below, Nat.mod_eq_of_lt below, if_neg some.ne']
    split_ifs <;> first | rfl | omega
  · have room := Nat.le_mul_of_pos_left (2 ^ (Binary64.leastPlaces + 1)) some
    rw [batches_eq positive small few, if_pos (by omega)]

/-- One row makes no batch where batches are too great. -/
example : batches (2 ^ (Binary64.leastPlaces + 1)) 1 = 0 := by
  rw [batches_of_short (Nat.two_pow_pos _) (by decide), Nat.one_mul, if_neg (Nat.lt_irrefl _)]

/-- The number of the last batch is the batches of the file, unless it lags or the size of a batch is
too great. -/
theorem number_eq_batches_iff {batchSize first total : Nat} (positive : 0 < batchSize)
    (within : first ≤ total) (few : total ≤ 2 ^ 53) :
    (if first = total then batches batchSize total
      else ⌈(total : ℚ) / batchSize⌉ - lag batchSize first total) = batches batchSize total ↔
    first = total ∨ batchSize < total * 2 ^ (Binary64.leastPlaces + 1) ∧
      lag batchSize first total = 0 := by
  obtain none | some := within.eq_or_lt
  · exact iff_of_true (if_pos none) (.inl none)
  · have number := lag_lt_ceil positive some
    rw [if_neg some.ne, batches_of_short positive few]
    split_ifs <;> omega

structure Outset (batchSize first : Nat) (row batch : Int) : Prop where
  row : row = first
  batch : batch = batches batchSize first

structure Within (batchSize first total stop : Nat) (row batch : Int) : Prop where
  aligned : ∃ k : Nat, row = (first + k * batchSize : Nat)
  left : row < total
  stop : (stop : Int) = min (row + batchSize) total
  batch : batch = (row.toNat / batchSize + 1 : Nat)

structure Passed (batchSize first total : Nat) (row batch : Int) : Prop where
  beyond : first < row
  aligned : (∃ k : Nat, row = (first + k * batchSize : Nat)) ∨ row = total
  batch : batch = ⌈(row : ℚ) / batchSize⌉ - lag batchSize first row.toNat

end Engine

open Engine

def Point.Shows (batchSize first total : Nat) (e : Engine) : Point → Prop
  | batch =>
    Outset batchSize first e.state.row e.state.batch ∨
      Passed batchSize first total e.state.row e.state.batch
  | row _ stop => Within batchSize first total stop e.state.row e.state.batch
  | stage =>
    match e.stage with
    | .call _ stop _ | .rowNotice _ stop | .release _ stop =>
      Within batchSize first total stop e.state.row e.state.batch
    | .batchNotice | .turn => Passed batchSize first total e.state.row e.state.batch
    | .idle | .finalNotice | .ended _ => e.state.status = .completed →
      Outset batchSize first e.state.row e.state.batch ∨
        Passed batchSize first total e.state.row e.state.batch

namespace Engine

structure Labelled (before : Engine) (plan : Job) (first : Nat) (p : Point) (e : Engine) :
    Prop where
  batchSize : e.batchSize = before.batchSize
  totalBatches : e.state.totalBatches = batches before.batchSize plan.file.totalRows
  shows : p.Shows before.batchSize first plan.file.totalRows e

section
variable {before e e' : Engine} {plan : Job} {first stop : Nat} {p p' : Point}

theorem Labelled.carry (labelled : Labelled before plan first p e)
    (same : e'.batchSize = e.batchSize ∧ e'.state.totalBatches = e.state.totalBatches)
    (shows : p.Shows before.batchSize first plan.file.totalRows e →
      p'.Shows before.batchSize first plan.file.totalRows e') : Labelled before plan first p' e' :=
  ⟨same.1.trans labelled.batchSize, same.2.trans labelled.totalBatches, shows labelled.shows⟩

/-- A batch begins by whole batches after the first row. -/
theorem within_of_opened {total : Nat} {row batch : Int}
    (shown : Outset before.batchSize first row batch ∨ Passed before.batchSize first total row batch)
    (left : row < total) (natural : 0 ≤ row)
    (ends : stop = min (row.toNat + before.batchSize) total) :
    Within before.batchSize first total stop row (row.toNat / before.batchSize + 1 : Nat) := by
  refine ⟨?_, left, by omega, rfl⟩
  obtain outset | passed := shown
  · exact ⟨0, by simpa using outset.row⟩
  · exact passed.aligned.resolve_right left.ne

/-- A batch that has come to its stop is behind the run. -/
theorem Within.passed {total : Nat} {row batch : Int}
    (within : Within before.batchSize first total stop row batch) :
    Passed before.batchSize first total stop batch := by
  have size := before.batchSize_pos
  obtain ⟨⟨k, rfl⟩, left, ends, rfl⟩ := within
  have start : first ≤ first + k * before.batchSize := Nat.le_add_right _ _
  refine ⟨by omega, ?_, ?_⟩
  · obtain whole | short := le_total (first + k * before.batchSize + before.batchSize) total
    · exact .inl ⟨k + 1, by rw [Nat.succ_mul]; omega⟩
    · exact .inr (by omega)
  · have ends' : stop = min (first + k * before.batchSize + before.batchSize) total := by omega
    have number := number_eq size rfl (by exact_mod_cast left) ends'
    simpa only [Int.toNat_natCast, Int.cast_natCast] using number

end

namespace Course
variable {before e : Engine} {plan : Job} {first : Nat} {moves : List Move} {new : List Event}
  {p : Point}

theorem labelled (course : Course before plan first moves new p e) :
    Labelled before plan first p e := by
  -- Only the begin and the end of a batch change what the run shows.
  induction course with
  | begun begun =>
    refine ⟨begun.batchSize, ?_, .inl ⟨?_, ?_⟩⟩ <;> simp [begun.state, reset]
  | @opened _ _ e stop course left going ends batch counted ih =>
    have low := course.placed.low
    have total := course.placed.total
    have ends' : stop = min (e.state.row.toNat + before.batchSize) plan.file.totalRows := by
      rw [← ih.batchSize]
      omega
    have within := within_of_opened ih.shows (by omega) (by omega) ends'
    rw [← ih.batchSize, ← counted] at within
    exact ih.carry ⟨rfl, rfl⟩ fun _ => by simpa [Point.Shows, ih.batchSize] using within
  | finished course ending ih =>
    exact ih.carry (by simp) fun shown => by simpa [Point.Shows] using fun _ => shown
  | held course inside paused ih => exact ih.carry (by simp) id
  | stopped course inside cancelling ih =>
    exact ih.carry (by simp) fun _ => by simp [Point.Shows, cancelling]
  | raised course inside unpaused going read ih =>
    exact ih.carry (by simp) fun _ => by simp [Point.Shows]
  | skipped course inside unpaused going read blank ih => exact ih.carry (by simp) id
  | submitted course inside unpaused going read due ih => exact ih.carry (by simp) id
  | closed course outside ih =>
    exact ih.carry (by simp) fun within => by simpa [Point.Shows] using Within.passed within
  | accepted course called ih =>
    exact ih.carry (by simp [accepted_fields called]) fun shown => by
      simpa [Point.Shows, called, accepted_fields called] using shown
  | rejected course called failure ih =>
    exact ih.carry (by simp [rejected_fields called, RunState.reject]) fun shown => by
      simpa [Point.Shows, called, rejected_fields called, RunState.reject] using shown
  | cutOff course called move cut ih => exact ih.carry (by simp) fun _ => by simp [Point.Shows]
  | interrupted course waiting ih => exact ih.carry (by simp) fun _ => by simp [Point.Shows]
  | returned course noticed ih =>
    exact ih.carry (by simp) fun shown => by simpa [Point.Shows, noticed] using shown
  | yielded course noticed ih =>
    exact ih.carry (by simp) fun shown => by simpa [Point.Shows, noticed] using shown
  | crashed course noticed failure ih =>
    exact ih.carry (by simp) fun _ => by simp [Point.Shows]
  | ended course noticed failure? outcome ih =>
    exact ih.carry (by simp) fun shown => by simpa [Point.Shows, noticed] using shown
  | continued course waiting ih =>
    exact ih.carry (by simp) fun shown => .inr (by simpa [Point.Shows, waiting] using shown)
  | released course waiting signal ih =>
    exact ih.carry (by simp) fun shown => by simpa [Point.Shows, waiting] using shown
  | operated course action ih =>
    exact ih.carry (by simp) fun shown => by simpa [Point.Shows] using shown
  | saved course ih => exact ih.carry (by simp) fun shown => by simpa [Point.Shows] using shown
  | ticked course now clock ih => exact ih.carry (by simp) id

/-- At the end of a batch the latest progress that was handed over is that of the run. -/
theorem handed_last (course : Course before plan first moves new p e) (stands : p = .stage)
    (closed : e.stage = .batchNotice ∨ e.stage = .turn) :
    (new.filterMap Event.handed?).head? = some (plan.progress e.state 0) := by
  have saved {e : Engine} {new : List Event} (job : e.job? = some plan) :
      ((e.handover ++ new).filterMap Event.handed?).head? = some (plan.progress e.state 0) := by
    simp [handover_eq job, Event.handed?]
  induction course with
  | begun | opened | skipped | returned | continued | released => cases stands
  | finished | held | stopped | raised | submitted | cutOff | interrupted | crashed | ended =>
    simp at closed
  | @closed _ marks e row stop course outside ih =>
    let ended := { e with state := { e.state with row := (stop : Int) } }
    have handed : ((ended.handover ++ marks).filterMap Event.handed?).head?
        = some (plan.progress ended.state 0) := saved course.placed.job
    simpa [ended] using handed
  | accepted course called ih => simp [accepted_fields called] at closed
  | rejected course called failure ih => simp [rejected_fields called] at closed
  | yielded course noticed ih => exact ih rfl (.inl noticed)
  | @operated _ _ e course action ih =>
    have state : plan.progress (e.operate action).2.state 0 = plan.progress e.state 0 := by
      rw [(operate_fields _ action).2.2.2.1]
      rfl
    rw [state]
    unfold operatorMarks
    split_ifs
    · exact saved course.placed.job
    · exact ih rfl (by simpa using closed)
  | saved course ih =>
    rw [saved course.placed.job]
    simp
  | ticked course now clock ih => exact ih rfl closed

end Course

theorem Labelled.batch_of_completed {before e : Engine} {plan : Job} {first : Nat}
    (labelled : Labelled before plan first .stage e) (placed : Placed before plan first .stage e)
    (completed : e.state.status = .completed) :
    e.state.batch = if first = plan.file.totalRows then batches before.batchSize plan.file.totalRows
      else ⌈(plan.file.totalRows : ℚ) / before.batchSize⌉
        - lag before.batchSize first plan.file.totalRows := by
  have last := placed.row_of_completed completed
  have shown : Outset before.batchSize first e.state.row e.state.batch ∨
      Passed before.batchSize first plan.file.totalRows e.state.row e.state.batch := by
    have shows := labelled.shows
    obtain stage | ⟨_, stage⟩ := placed.isOver (by simp [completed, Status.isTerminal]) <;>
      simp only [Point.Shows, stage] at shows <;> exact shows completed
  rw [last] at shown
  obtain ⟨row, batch⟩ | ⟨beyond, _, batch⟩ := shown
  · rw [if_pos (by omega), batch]
    congr 1
    omega
  · rw [if_neg (by omega), batch]
    rfl

/-- What a run shows of its batches. It starts with the batches of the rows before its first one, and
behind each batch its number is the batches of the rows up to there, or one less where the cut of the
batches lags. So a completed run shows the batches of its file exactly if it began behind the last row
or its last batch does not lag, and the size of a batch is not beyond floating point. -/
theorem start_readout (before : Engine) (job : Job) (row : Int) {mapping : Mapping}
    {dropped : List Text} (idle : before.state.status.isActive = false)
    (valid : job.mapping.validate job.file.headers = .ok (mapping, dropped)) :
    let first := resumeRow job.file row
    let total := job.file.totalRows
    let size := before.batchSize
    (∀ rows : Nat, rows ≤ 2 ^ 53 → batches size rows =
        if size < rows * 2 ^ (Binary64.leastPlaces + 1) then ⌈(rows : ℚ) / size⌉ else 0) ∧
      (before.start job row).1 = .ok () ∧
      (∃ state, .started job.file.name state ∈ before.since (before.start job row).2 ∧
        state.row = (first : Int) ∧ state.batch = batches size first ∧
        state.totalBatches = batches size total) ∧
      ∀ moves e, Moves (before.start job row).2 moves e →
        e.state.totalBatches = batches size total ∧
          (e.state.status = .completed →
            e.state.batch = (if first = total then batches size total
              else ⌈(total : ℚ) / size⌉ - lag size first total) ∧
            (total ≤ 2 ^ 53 → (e.state.batch = e.state.totalBatches ↔ first = total ∨
              size < total * 2 ^ (Binary64.leastPlaces + 1) ∧ lag size first total = 0))) ∧
          (e.stage = .batchNotice ∨ e.stage = .turn →
            ∃ c : Checkpoint, (before.handedSince e).getLast? = some c ∧ c.row = e.state.row ∧
              c.batch = ⌈(c.row : ℚ) / size⌉ - lag size first c.row.toNat) := by
  intro first total size
  obtain ⟨e₀, begun, started⟩ := start_valid before job row idle valid
  refine ⟨fun rows few => batches_of_short before.batchSize_pos few, by rw [started],
    ⟨_, started_mem_since before job row idle valid, rfl, rfl, rfl⟩, ?_⟩
  rw [started]
  intro moves e reached
  obtain ⟨new, course⟩ := Course.of_moves begun reached
  have labelled := course.labelled
  refine ⟨labelled.totalBatches, fun completed => ?_, fun closed => ?_⟩
  · have batch := labelled.batch_of_completed course.placed completed
    refine ⟨batch, fun few => ?_⟩
    rw [batch, labelled.totalBatches]
    exact number_eq_batches_iff before.batchSize_pos (resumeRow_le _ _) few
  · have handed : before.handedSince e = (new.filterMap Event.handed?).reverse :=
      course.filterMap_since handed_isMark
    have shows := labelled.shows
    refine ⟨_, by rw [handed, List.getLast?_reverse]; exact course.handed_last rfl closed, rfl, ?_⟩
    obtain stage | stage := closed <;> simp only [Point.Shows, stage] at shows <;>
      exact shows.batch

/-- A run of five rows from the third one on ends with the last of its three batches. -/
theorem start_readout_sample :
    ∃ moves e, Moves (sample.start fiveJob 2).2 moves e ∧ e.state.status = .completed ∧
      e.state.batch = e.state.totalBatches ∧ e.state.batch = 3 := by
  let sent : List Move := [.answer .accepted, .acknowledge none]
  let moves : List Move := sent ++ sent ++ [.acknowledge none, .proceed] ++ sent ++
    [.acknowledge none, .proceed]
  have ended : ((sample.start fiveJob 2).2.after? moves).map
      (fun e => (e.state.status, e.state.batch)) = some (.completed, 3) := by
    decide +kernel
  obtain ⟨e, reached, shown⟩ := Option.map_eq_some_iff.mp ended
  obtain ⟨completed, batch⟩ := Prod.mk.inj shown
  have run := reaches_iff.mpr reached
  obtain ⟨_, _, _, shows⟩ := start_readout sample fiveJob 2 rfl rfl
  obtain ⟨_, exact⟩ := (shows moves e run).2.1 completed
  exact ⟨moves, e, run, completed,
    (exact (by decide)).mpr (.inr ⟨by decide +kernel, by decide⟩), batch⟩

def threeJob : Job :=
  { sampleJob with file := ⟨"people.csv", ["email"], ["ann", "bob", "cid"].map ([·]), 17⟩ }

/-- A run of three rows in batches of two that resumes at the second row ends with the first of its two
batches, and has saved that batch with all three rows. -/
theorem readout_lags :
    ∃ moves e, Moves (sample.start threeJob 1).2 moves e ∧ e.state.status = .completed ∧
      e.state.batch = 1 ∧ e.state.totalBatches = 2 ∧
      ∃ c : Checkpoint, (sample.handedSince e).getLast? = some c ∧ c.row = 3 ∧ c.batch = 1 ∧
        c.batch ≠ ⌈(c.row : ℚ) / sample.batchSize⌉ := by
  let sent : List Move := [.answer .accepted, .acknowledge none]
  let moves : List Move := sent ++ sent ++ [.acknowledge none, .proceed]
  have ended : ((sample.start threeJob 1).2.after? moves).map (fun e =>
      (e.state.status, e.state.batch, e.state.totalBatches,
        (sample.handedSince e).getLast?.map fun c => (c.row, c.batch)))
      = some (.completed, 1, 2, some (3, 1)) := by
    decide +kernel
  obtain ⟨e, reached, shown⟩ := Option.map_eq_some_iff.mp ended
  simp only [Prod.mk.injEq, Option.map_eq_some_iff] at shown
  obtain ⟨completed, batch, totalBatches, c, last, row, number⟩ := shown
  refine ⟨moves, e, reaches_iff.mpr reached, completed, batch, totalBatches, c, last, row, number, ?_⟩
  rw [row, number]
  have rounded : ⌈((3 : Nat) : ℚ) / (2 : Nat)⌉ = 2 := ceil_div Nat.two_pos 3
  intro same
  cases same.trans rounded

end Engine
end Intake
