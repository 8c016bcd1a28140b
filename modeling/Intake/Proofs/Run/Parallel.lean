import Intake.Proofs.Run.Regardless

/-! What an engine does depends neither on its store nor on what is in its journal. So two engines
that differ in both stay in step by the same moves, and leave the same marks. -/
namespace Intake.Engine

def onto (e : Engine) (past : List Event) : Engine := { e with journal := e.journal ++ past }

/-! Whatever an engine does it adds to its journal, and does not look at that. -/

theorem onto_noteAll (e : Engine) (past events : List Event) :
    (e.onto past).noteAll events = (e.noteAll events).onto past := by
  simp [noteAll, onto]

theorem onto_save (e : Engine) (past : List Event) : (e.onto past).save = e.save.onto past := by
  have same : (e.onto past).snapshot? = e.snapshot? := rfl
  unfold save saveProgress
  rw [same]
  cases e.snapshot? with
  | none => rfl
  | some checkpoint => simp [onto, note]

theorem onto_fail (e : Engine) (past : List Event) (failure : Failure) :
    (e.onto past).fail failure = (e.fail failure).onto past := by
  let failed := { e with state := { e.state with fatal := some failure.text } }.enter .failed
  show (failed.onto past).save.conclude = failed.save.conclude.onto past
  rw [onto_save]
  rfl

theorem onto_interrupted (e : Engine) (past : List Event) :
    (e.onto past).interrupted = e.interrupted.onto past := by
  unfold interrupted
  rw [onto_save]
  rfl

theorem onto_closeBatch (e : Engine) (past : List Event) (stop : Nat) :
    (e.onto past).closeBatch stop = (e.closeBatch stop).onto past := by
  let closed := { e with state := { e.state with row := (stop : Int) } }
  show { (closed.onto past).save with stage := .batchNotice }.notify
    = { closed.save with stage := .batchNotice }.notify.onto past
  rw [onto_save]
  rfl

theorem onto_walk (e : Engine) (past : List Event) (row stop : Nat) :
    (e.onto past).walk row stop = (e.walk row stop).onto past := by
  fun_induction walk e row stop with
  | case1 e row inside paused => rw [walk, if_pos inside, if_pos (by exact paused)]; rfl
  | case2 e row inside unpaused cancelling =>
    rw [walk, if_pos inside, if_neg (by exact unpaused), if_pos (by exact cancelling)]
    rfl
  | case3 e row inside unpaused going discards noted error =>
    rename_i read
    have same : (e.onto past).contactAt row = (discards, .error error) := read
    rw [walk, if_pos inside, if_neg (by exact unpaused), if_neg (by exact going), same]
    simp only [onto_noteAll, onto_fail]
    rfl
  | case4 e row inside unpaused going discards noted contact due =>
    rename_i read
    have same : (e.onto past).contactAt row = (discards, .ok contact) := read
    rw [walk, if_pos inside, if_neg (by exact unpaused), if_neg (by exact going), same]
    simp only [due, if_true, onto_noteAll]
    rfl
  | case5 e row inside unpaused going discards noted contact blank read =>
    rename_i ih
    have same : (e.onto past).contactAt row = (discards, .ok contact) := read
    rw [walk, if_pos inside, if_neg (by exact unpaused), if_neg (by exact going), same]
    simp only [blank, onto_noteAll]
    exact ih
  | case6 e row outside =>
    rw [walk, if_neg outside]
    exact onto_closeBatch e past stop

theorem onto_operate (e : Engine) (past : List Event) (action : Action) :
    ((e.onto past).operate action).2 = (e.operate action).2.onto past := by
  cases action with
  | pause =>
    have same : (e.onto past).state.status = e.state.status := rfl
    simp only [operate, pause, same]
    split_ifs
    · exact congrArg (fun saved : Engine => (saved.note (.entered saved.fileName saved.state)).notify)
        (onto_save { e.setStatus .paused with released := false } past)
    · rfl
  | resume =>
    have same : (e.onto past).state.status = e.state.status := rfl
    simp only [operate, resume, same]
    split_ifs <;> rfl
  | cancel =>
    have same : (e.onto past).state.status = e.state.status := rfl
    simp only [operate, cancel, same, onto_save]
    split_ifs <;> rfl

theorem onto_nextBatch (e : Engine) (past : List Event) :
    (e.onto past).nextBatch = e.nextBatch.onto past := by
  unfold nextBatch
  by_cases left : e.state.row < e.state.totalRows ∧ e.state.status ≠ .cancelling
  · rw [if_pos left, if_pos (by exact left)]
    let counted := { e with
      state := { e.state with batch := (e.state.row.toNat / e.batchSize + 1 : Nat) } }
    exact onto_walk (counted.note (.batchBegun counted.state _)) past _ _
  · rw [if_neg left, if_neg (by exact left)]
    rfl

theorem onto_answer (e : Engine) (past : List Event) (reply : Reply) :
    (e.onto past).answer reply = (e.answer reply).onto past := by
  have same : (e.onto past).stage = e.stage := rfl
  unfold answer
  rw [same]
  cases e.stage with
  | call row stop contact =>
    cases reply with
    | accepted | rejected failure => rfl
    | interrupted => exact onto_interrupted (e.note (.replied row .interrupted)) past
  | _ => rfl

theorem onto_acknowledge (e : Engine) (past : List Event) (failure? : Option Failure) :
    (e.onto past).acknowledge failure? = (e.acknowledge failure?).onto past := by
  have same : (e.onto past).stage = e.stage := rfl
  unfold acknowledge
  rw [same]
  cases e.stage <;> cases failure?
  case rowNotice.none => exact onto_walk e past _ _
  case rowNotice.some | batchNotice.some => exact onto_fail e past _
  all_goals rfl

theorem onto_proceed (e : Engine) (past : List Event) :
    (e.onto past).proceed = e.proceed.onto past := by
  have same : (e.onto past).stage = e.stage := rfl
  unfold proceed
  rw [same]
  cases e.stage with
  | turn => exact onto_nextBatch e past
  | release row stop =>
    have signal : (e.onto past).released = e.released := rfl
    simp only [signal]
    split_ifs
    · exact onto_walk e past row stop
    · rfl
  | _ => rfl

theorem onto_interrupt (e : Engine) (past : List Event) :
    (e.onto past).interrupt = e.interrupt.onto past := by
  have same : (e.onto past).stage = e.stage := rfl
  unfold interrupt
  rw [same]
  cases e.stage with
  | call row stop contact => exact onto_interrupted (e.note (.replied row .interrupted)) past
  | turn | release => exact onto_interrupted e past
  | _ => rfl

theorem onto_move (e : Engine) (past : List Event) (move : Move) :
    (e.onto past).move move = (e.move move).onto past := by
  cases move with
  | answer reply => exact onto_answer e past reply
  | acknowledge failure? => exact onto_acknowledge e past failure?
  | proceed => exact onto_proceed e past
  | interrupt => exact onto_interrupt e past
  | operate action => exact onto_operate e past action
  | save => exact onto_save e past
  | tick now => rfl

def blank (e : Engine) : Engine := { e with journal := [] }

/-- A move of an engine is that of the engine without its journal. -/
theorem move_eq_onto (e : Engine) (move : Move) :
    e.move move = (e.blank.move move).onto e.journal :=
  onto_move e.blank e.journal move

theorem Alike.blank {a b : Engine} (alike : Alike a b) : Alike a.blank b.blank :=
  { alike with journal := rfl }

theorem marks_visible (events : List Event) : marks (visible events) = marks events := by
  unfold marks visible
  rw [List.filter_filter]
  refine List.filter_congr fun event _ => ?_
  cases event <;> rfl

structure Parallel (past : List Event) (a b : Engine) : Prop where
  alike : Alike a.blank b.blank
  since : ∃ mine others, a.journal = mine ++ past ∧ b.journal = others ++ past ∧
    marks others = marks mine

namespace Parallel
variable {past : List Event} {a b : Engine}

theorem refl {e : Engine} (kept : past <:+ e.journal) : Parallel past e e := by
  obtain ⟨happened, grown⟩ := kept
  exact ⟨⟨rfl, rfl, rfl, rfl, rfl, rfl, rfl, rfl⟩, happened, happened, grown.symm, grown.symm, rfl⟩

theorem state (parallel : Parallel past a b) : b.state = a.state := parallel.alike.state

theorem stage (parallel : Parallel past a b) : b.stage = a.stage := parallel.alike.stage

theorem admits (parallel : Parallel past a b) (move : Move) : b.admits move = a.admits move :=
  parallel.alike.admits move

theorem move (parallel : Parallel past a b) (move : Move) :
    Parallel past (a.move move) (b.move move) := by
  obtain ⟨alike, mine, others, mine_eq, others_eq, same⟩ := parallel
  have along := alike.move move
  rw [move_eq_onto a, move_eq_onto b]
  refine ⟨along.blank, (a.blank.move move).journal ++ mine, (b.blank.move move).journal ++ others,
    ?_, ?_, ?_⟩
  · simp [onto, mine_eq]
  · simp [onto, others_eq]
  · rw [marks_append, marks_append, same, ← marks_visible, along.journal, marks_visible]

/-- Whatever is stored, and is noted without a mark, keeps engines parallel. -/
theorem aside (parallel : Parallel past a b) (store : ProgressStore) {happened : List Event}
    (unmarked : marks happened = []) :
    Parallel past a { b with store, journal := happened ++ b.journal } := by
  obtain ⟨alike, mine, others, mine_eq, others_eq, same⟩ := parallel
  exact ⟨{ alike with }, mine, happened ++ others, mine_eq, by simp [others_eq],
    by simp [unmarked, same]⟩

theorem symm (parallel : Parallel past a b) : Parallel past b a := by
  obtain ⟨⟨workspace, batchSize, job, state, released, stage, _, now⟩, mine, others, mine_eq,
    others_eq, same⟩ := parallel
  exact ⟨⟨workspace.symm, batchSize.symm, job.symm, state.symm, released.symm, stage.symm, rfl,
    now.symm⟩, others, mine, others_eq, mine_eq, same.symm⟩

theorem asides (parallel : Parallel past a b) (store store' : ProgressStore)
    {happened happened' : List Event} (unmarked : marks happened = [])
    (unmarked' : marks happened' = []) :
    Parallel past { a with store, journal := happened ++ a.journal }
      { b with store := store', journal := happened' ++ b.journal } :=
  ((parallel.aside store' unmarked').symm.aside store unmarked).symm

/-- Since their past parallel engines have left the same marks. -/
theorem filterMap_since {before : Engine} {α : Type} {view : Event → Option α}
    (parallel : Parallel before.journal a b)
    (marked : ∀ event, (view event).isSome → event.isMark) :
    (before.since b).filterMap view = (before.since a).filterMap view := by
  obtain ⟨_, mine, others, mine_eq, others_eq, same⟩ := parallel
  rw [since_of_append mine_eq, since_of_append others_eq, List.filterMap_reverse,
    List.filterMap_reverse, ← filterMap_marks marked, same, filterMap_marks marked]

end Parallel

/-- Where a run stands it stands beside a parallel one, too. -/
theorem Placed.parallel {before a b : Engine} {plan : Job} {first : Nat} {past : List Event}
    (placed : Placed before plan first .stage a) (parallel : Parallel past a b) :
    Placed before plan first .stage b := by
  obtain ⟨workspace, job, total, low, high, fits⟩ := placed
  have state := parallel.state
  have stage := parallel.stage
  refine ⟨parallel.alike.workspace.trans workspace, parallel.alike.job.trans job, ?_, ?_, ?_, ?_⟩
  · rw [state, total]
  · rw [state]
    exact low
  · rw [state]
    exact high
  · simpa only [Point.Fits, state, stage] using fits

end Intake.Engine
