import Intake.Proofs.Run.Progress
import Intake.Session

/-! The runs of a session. What is done to a session while its run goes on comes down to moves of its
engine; when the run has ended, the session leaves the engine as it is, except that it removes the
progress of a completed run and announces it. -/
namespace Intake.Session

inductive Act
  | engine (move : Move)
  | close (confirmed : Option Bool)
  | await

def admits (s : Session) (act : Act) : Bool :=
  s.engine.stage.isBusy && match act with
    | .engine move => s.engine.admits move
    | .close _ | .await => true

def act (s : Session) : Act → Session
  | .engine move => s.follow (s.engine.move move)
  | .close confirmed => (s.beginClose confirmed).2
  | .await => s.awaitTask.2

abbrev Acts (s : Session) : List Act → Session → Prop := Reaches admits act s

abbrev after? (s : Session) (acts : List Act) : Option Session := stateAfter? admits act s acts

def Begins (s begun : Session) : Prop := s.run = (.ok (), begun) ∨ s.begin = (.ok (), begun)

/-- A session begins a run and comes from there to a later state. -/
def Runs (s reached : Session) : Prop := ∃ begun acts, s.Begins begun ∧ begun.Acts acts reached

def deliveries (s reached : Session) : List Delivery :=
  (s.engine.callsSince reached.engine).map Prod.snd

structure Settled (e e' : Engine) : Prop where
  completed : e.state.status = .completed
  workspace : e'.workspace = e.workspace
  state : e'.state = e.state
  stage : e'.stage = e.stage
  ended : e.stage.isBusy = false
  journal : ∃ event announcement,
    e'.journal = .published announcement :: .stored event :: e.journal

@[simp] theorem finishTask_engine (s : Session) (result : Except SessionError Outcome) :
    (s.finishTask result).engine = s.engine := by
  cases closing : s.closing <;> simp only [finishTask, closing, if_true]
  · rfl
  · split <;> rfl

private theorem settleState_engine (s : Session) (file : ContactFile)
    (ended : s.engine.stage.isBusy = false) :
    (s.settleState file).engine = s.engine ∨ Settled s.engine (s.settleState file).engine := by
  simp only [settleState]
  split
  · rename_i completed
    exact .inr ⟨completed, rfl, rfl, rfl, ended, _, _, rfl⟩
  · exact .inl rfl

private theorem settle_engine (s : Session) (outcome : Outcome)
    (ended : s.engine.stage.isBusy = false) :
    (s.settle outcome).engine = s.engine ∨ Settled s.engine (s.settle outcome).engine := by
  simp only [settle]
  cases outcome <;> cases s.engine.job? <;> simp only <;> split <;>
    simp only [finishTask_engine, true_or, settleState_engine s _ ended]

/-- A session takes over the engine after a move, and settles the run if that has ended. -/
theorem follow_engine (s : Session) (engine : Engine) :
    (s.follow engine).engine = engine ∨ Settled engine (s.follow engine).engine := by
  simp only [follow]
  split
  · rename_i stage
    exact settle_engine _ _ (by simp [stage, Stage.isBusy])
  · exact .inl rfl

@[simp] theorem awaitTask_engine (s : Session) : s.awaitTask.2.engine = s.engine := by
  unfold awaitTask
  split <;> rfl

/-- Closing asks a run that is going on to stop, as its operator would. -/
theorem beginClose_engine (s : Session) (confirmed : Option Bool) :
    (s.beginClose confirmed).2.engine = s.engine ∨
      (s.beginClose confirmed).2.engine = (s.engine.save.operate .cancel).2 := by
  unfold beginClose
  split
  · split
    · exact .inl rfl
    · exact .inr rfl
  · exact .inl rfl

/-- What closing does to the engine is what moves of its operator do. -/
theorem moves_beginClose {s : Session} {e : Engine} {moves : List Move}
    (moved : e.Moves moves s.engine) (confirmed : Option Bool) :
    ∃ moves, e.Moves moves (s.beginClose confirmed).2.engine ∧
      (s.beginClose confirmed).2.engine.stage = s.engine.stage := by
  obtain still | stopped := s.beginClose_engine confirmed
  · rw [still]
    exact ⟨moves, moved, rfl⟩
  · rw [stopped]
    have saved : e.Moves (moves ++ [.save]) s.engine.save := .next .save moved rfl
    have cancelled : e.Moves (moves ++ [.save] ++ [.operate .cancel])
        (s.engine.save.operate .cancel).2 :=
      .next (.operate .cancel) saved rfl
    exact ⟨_, cancelled, by simp⟩

private theorem run_start {s begun : Session} (started : s.run = (.ok (), begun)) :
    ∃ file, s.file? = some file ∧
      s.engine.start ⟨file, s.mapping, s.lists, s.calendar⟩ s.resumeRow = (.ok (), begun.engine) := by
  unfold run at started
  cases opened : s.file? with
  | none => simp [opened] at started
  | some file =>
    simp only [opened] at started
    split at started
    · simp at started
    · cases result : s.engine.start ⟨file, s.mapping, s.lists, s.calendar⟩ s.resumeRow with
      | mk outcome engine =>
        cases outcome with
        | error error => simp [result] at started
        | ok _ =>
          simp only [result, Prod.mk.injEq, true_and] at started
          subst started
          exact ⟨file, rfl, result⟩

theorem begin_run {s begun : Session} (started : s.begin = (.ok (), begun)) :
    ∃ ran, s.run = (.ok (), ran) ∧ begun = { ran with task := .underway, runsTask := true } := by
  unfold begin startTask at started
  cases result : s.run with
  | mk outcome ran => cases task : s.task <;> cases outcome <;> simp_all [finishTask]

theorem Begins.start {s begun : Session} (begins : s.Begins begun) :
    ∃ file, s.file? = some file ∧
      s.engine.start ⟨file, s.mapping, s.lists, s.calendar⟩ s.resumeRow = (.ok (), begun.engine) := by
  obtain ran | task := begins
  · exact run_start ran
  · obtain ⟨ran, started, rfl⟩ := begin_run task
    obtain ⟨file, opened, begun⟩ := run_start started
    exact ⟨file, opened, begun⟩

/-- While a run goes on the engine of its session moves as the engine alone would. -/
theorem Acts.moves {s reached : Session} {acts : List Act} (acted : s.Acts acts reached) :
    ∃ moves e, s.engine.Moves moves e ∧
      (reached.engine = e ∨ Settled e reached.engine) := by
  induction acted with
  | none => exact ⟨[], s.engine, .none, .inl rfl⟩
  | @next _ reached act _ admitted ih =>
    obtain ⟨busy, waits⟩ := Bool.and_eq_true_iff.mp admitted
    obtain ⟨moves, e, moved, same | settled⟩ := ih
    · subst same
      cases act with
      | engine move => exact ⟨_, _, .next move moved waits, follow_engine reached _⟩
      | close confirmed =>
        obtain ⟨closing, closed, _⟩ := moves_beginClose moved confirmed
        exact ⟨closing, _, closed, .inl rfl⟩
      | await => exact ⟨moves, _, moved, .inl reached.awaitTask_engine⟩
    · rw [settled.stage, settled.ended] at busy
      cases busy

/-- A run leaves the calendar of its session. -/
theorem Runs.calendar {s reached : Session} (runs : s.Runs reached) :
    reached.calendar = s.calendar := by
  have finishTask (s : Session) (result : Except SessionError Outcome) :
      (s.finishTask result).calendar = s.calendar := by
    simp only [Session.finishTask]
    split
    · split <;> rfl
    · rfl
  have settle (s : Session) (outcome : Outcome) : (s.settle outcome).calendar = s.calendar := by
    have settleState (file : ContactFile) : (s.settleState file).calendar = s.calendar := by
      simp only [Session.settleState]
      split <;> rfl
    simp only [Session.settle]
    cases outcome <;> cases s.engine.job? <;> simp only <;> split <;>
      simp only [finishTask, settleState]
  obtain ⟨begun, acts, begins, acted⟩ := runs
  have kept : begun.calendar = s.calendar := by
    have ran {s begun : Session} (started : s.run = (.ok (), begun)) :
        begun.calendar = s.calendar := by
      unfold run at started
      split at started
      · cases started
      · split at started
        · cases started
        · split at started <;> cases started
          rfl
    obtain started | task := begins
    · exact ran started
    · obtain ⟨between, started, rfl⟩ := begin_run task
      exact (ran started : between.calendar = s.calendar)
  clear begins
  induction acted with
  | none => exact kept
  | @next _ reached act _ _ ih =>
    refine Eq.trans ?_ ih
    cases act with
    | engine move =>
      simp only [Session.act, follow]
      split
      · exact settle _ _
      · rfl
    | close confirmed =>
      simp only [Session.act, beginClose]
      split_ifs <;> rfl
    | await =>
      simp only [Session.act, awaitTask]
      split <;> rfl

/-- The run of a session is a run of its file with its mapping, as far as that fits the file, and
its lists. -/
theorem Runs.course {s reached : Session} (runs : s.Runs reached) {file : ContactFile}
    {kept : Mapping} {dropped : List Text} (opened : s.file? = some file)
    (valid : s.mapping.validate file.headers = .ok (kept, dropped)) :
    ∃ moves new e, Engine.Course s.engine (Engine.planOf ⟨file, s.mapping, s.lists, s.calendar⟩ kept)
      (Engine.resumeRow file s.resumeRow) moves new .stage e ∧
      (reached.engine = e ∨ Settled e reached.engine) := by
  obtain ⟨begun, acts, begins, acted⟩ := runs
  obtain ⟨file', opened', started⟩ := begins.start
  obtain rfl : file' = file := Option.some.inj (opened'.symm.trans opened)
  have idle := Engine.idle_of_start started
  obtain ⟨e₀, first, same⟩ :=
    Engine.start_valid s.engine ⟨file', s.mapping, s.lists, s.calendar⟩ s.resumeRow idle valid
  obtain ⟨moves, e, moved, after⟩ := acted.moves
  have engine : begun.engine = e₀.nextBatch := congrArg Prod.snd (started.symm.trans same)
  rw [engine] at moved
  obtain ⟨new, course⟩ := Engine.Course.of_moves first moved
  exact ⟨moves, new, e, course, after⟩

theorem Settled.callsSince {before e e' : Engine} (settled : Settled e e')
    (kept : before.journal <:+ e.journal) : before.callsSince e' = before.callsSince e := by
  obtain ⟨event, announcement, journal⟩ := settled.journal
  have inside : before.journal.length ≤ e.journal.reverse.length := by
    simpa using kept.length_le
  simp only [Engine.callsSince, Engine.since, journal, List.reverse_cons, List.append_assoc]
  rw [List.drop_append_of_le_length inside]
  simp [Event.call?]

structure Span (plan : Job) (first : Nat) (s reached : Session) (reach : Nat) : Prop where
  low : first ≤ reach
  high : reach ≤ plan.file.totalRows
  rows : (s.engine.callsSince reached.engine).map Prod.fst = plan.dueRows first reach
  calls : ∀ call ∈ s.engine.callsSince reached.engine,
    ∃ now, plan.deliveryAt? now s.workspace call.1 = some call.2
  workspace : reached.workspace = s.workspace
  total : reached.engine.state.totalRows = plan.file.totalRows
  begun : first ≤ reached.engine.state.row
  behind : reached.engine.state.row ≤ reach
  completed : reached.engine.state.status = .completed → reach = plan.file.totalRows
  kept : (∀ event ∈ s.engine.since reached.engine, event.isLoss = false) →
    reached.engine.state.status = .cancelled ∨ reached.engine.state.status = .failed →
    Engine.Kept s.engine plan reached.engine

theorem Span.deliveries {plan : Job} {first reach : Nat} {s reached : Session}
    (span : Span plan first s reached reach) (timeless : plan.Timeless) (now : Int) :
    s.deliveries reached = plan.deliveries now s.workspace first reach :=
  timeless.deliveries_of_calls span.rows span.calls now

theorem Runs.span {s reached : Session} (runs : s.Runs reached) {file : ContactFile}
    {kept : Mapping} {dropped : List Text} (opened : s.file? = some file)
    (valid : s.mapping.validate file.headers = .ok (kept, dropped)) :
    ∃ reach, Span (Engine.planOf ⟨file, s.mapping, s.lists, s.calendar⟩ kept)
      (Engine.resumeRow file s.resumeRow) s reached reach := by
  obtain ⟨moves, new, e, course, after⟩ := runs.course opened valid
  obtain ⟨reach, tally⟩ := course.tallied
  have placed := course.placed
  obtain ⟨behind, high⟩ := placed.within tally.reaches
  have state : reached.engine.state = e.state := by
    obtain same | settled := after
    · rw [same]
    · exact settled.state
  have workspace : reached.engine.workspace = e.workspace := by
    obtain same | settled := after
    · rw [same]
    · exact settled.workspace
  have calls : s.engine.callsSince reached.engine = s.engine.callsSince e := by
    obtain same | settled := after
    · rw [same]
    · exact settled.callsSince course.marked.1
  refine ⟨reach, ?_⟩
  exact
    { low := tally.low
      high
      rows := by rw [calls, tally.callsSince_fst course]
      calls := by
        intro call made
        obtain ⟨now, contact, _, built, shape⟩ := tally.mem_callsSince course (calls ▸ made)
        exact ⟨now, by simp [Job.deliveryAt?, built, shape, Session.workspace]⟩
      workspace := workspace.trans placed.workspace
      total := by rw [state, placed.total]
      begun := by rw [state]; exact placed.low
      behind := by rw [state]; exact behind
      completed := by rw [state]; exact tally.last_row placed
      kept := by
        intro silent stopped
        obtain same | settled := after
        · rw [same] at silent stopped ⊢
          refine course.kept (course.lossless silent) ?_
          obtain status | status := stopped <;> simp [status]
        · rw [settled.state, settled.completed] at stopped
          simp at stopped }

end Intake.Session
