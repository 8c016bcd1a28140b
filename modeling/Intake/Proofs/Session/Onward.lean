import Intake.Proofs.Run.Ending
import Intake.Proofs.Session.Chain

/-! The run after a run that was stopped. What a run leaves in its session is its file with the row
from which to go on, and no other act between two runs moves that row; a session that reopens the
file takes the row from the progress that was stored. The next run sends no row before it. -/
namespace Intake

namespace Session

inductive Between (s : Session) : Session → Prop
  | nothing : Between s s
  | assigned {t : Session} (before : Between s t) (key : Text) (header : Option Text) :
      Between s (t.assign key header).2
  | listed {t : Session} (before : Between s t) (lists : List Text) : Between s (t.setLists lists)
  | moved {t : Session} (before : Between s t) (move : Move)
      (admitted : t.engine.admits move = true) :
      Between s { t with engine := t.engine.move move }

theorem Between.fields {s t : Session} (between : Between s t) :
    t.file? = s.file? ∧ t.resumeRow = s.resumeRow := by
  induction between with
  | nothing => exact ⟨rfl, rfl⟩
  | @assigned t before key header ih =>
    unfold assign
    cases opened : t.file? with
    | none => simpa [opened] using ih
    | some file =>
      dsimp only
      split
      · simpa [opened] using ih
      · split <;> simpa [opened] using ih
  | listed before lists ih => exact ih
  | moved before move admitted ih => exact ih

/-- A run sends no row before the one from which its session goes on. -/
theorem Runs.calls_ge {s reached : Session} (runs : s.Runs reached) {file : ContactFile}
    (opened : s.file? = some file) (low : 0 ≤ s.resumeRow) (high : s.resumeRow ≤ file.totalRows) :
    ∀ call ∈ s.engine.callsSince reached.engine, s.resumeRow ≤ call.1 := by
  obtain ⟨begun, acts, begins, acted⟩ := runs
  obtain ⟨file', opened', started⟩ := begins.start
  obtain rfl : file' = file := Option.some.inj (opened'.symm.trans opened)
  obtain ⟨kept, dropped, valid⟩ := Engine.valid_of_start started
  obtain ⟨reach, span⟩ := Runs.span ⟨begun, acts, begins, acted⟩ opened valid
  intro call made
  have listed : call.1 ∈ (s.engine.callsSince reached.engine).map Prod.fst :=
    List.mem_map_of_mem made
  rw [span.rows] at listed
  have first := (Job.mem_dueRows.mp listed).1
  simp only [Engine.resumeRow, low, high, and_self, if_true] at first
  omega

def rowAfter (file : ContactFile) (row : Int) (state : RunState) : Outcome → Int
  | .finished =>
    if state.status = .completed then 0 else if state.row < file.totalRows then state.row else 0
  | _ => row

def ReadyOrClosed (job : Job) (row : Int) (s : Session) : Prop := s.file? = none ∨ Ready job row s

def Stands (job : Job) (row : Int) (s : Session) : Prop :=
  match s.engine.stage with
  | .ended outcome => ReadyOrClosed job (rowAfter job.file row s.engine.state outcome) s
  | _ => ReadyOrClosed job row s

section
variable {s : Session} {job plan : Job} {row : Int}

theorem stands_of_busy (busy : s.engine.stage.isBusy = true) :
    Stands job row s ↔ ReadyOrClosed job row s := by
  unfold Stands
  cases stage : s.engine.stage with
  | ended outcome => simp [stage, Stage.isBusy] at busy
  | _ => exact Iff.rfl

theorem Ready.settleState (ready : Ready job row s) :
    Ready job (rowAfter job.file row s.engine.state .finished) (s.settleState job.file) := by
  obtain ⟨file, mapping, lists, pending, _, calendar⟩ := ready
  by_cases completed : s.engine.state.status = .completed
  · simp only [Session.settleState, rowAfter, completed, if_true]
    exact ⟨file, mapping, lists, pending, rfl, calendar⟩
  · simp only [Session.settleState, rowAfter, completed, if_false]
    exact ⟨file, mapping, lists, pending, rfl, calendar⟩

theorem ReadyOrClosed.finishTask (stands : ReadyOrClosed job row s)
    (result : Except SessionError Outcome) : ReadyOrClosed job row (s.finishTask result) := by
  unfold Session.finishTask
  dsimp only
  split
  · split
    · exact .inl rfl
    · exact stands.imp id fun ready => { ready with }
  · exact stands.imp id fun ready => { ready with }

theorem ReadyOrClosed.settle (stands : ReadyOrClosed job row s) (given : s.engine.job? = some plan)
    (same : plan.file = job.file) (outcome : Outcome) :
    ReadyOrClosed job (rowAfter job.file row s.engine.state outcome) (s.settle outcome) := by
  have finish {t : Session} {row : Int} (stands : ReadyOrClosed job row t) :
      ReadyOrClosed job row (if t.runsTask then t.finishTask (.ok outcome) else t) := by
    split
    · exact stands.finishTask _
    · exact stands
  unfold Session.settle
  cases outcome with
  | finished =>
    simp only [given, same]
    refine finish (stands.imp (fun closed => ?_) Ready.settleState)
    unfold Session.settleState
    dsimp only
    split
    · exact closed
    · exact closed
  | failed failure => exact finish stands
  | interrupted => exact finish stands

/-- While its run goes on a session stands ready at the row of that run, unless it is closed. -/
theorem ReadyOrClosed.act (stands : ReadyOrClosed job row s) (act : Act)
    (admitted : s.admits act = true)
    (given : ∀ move, s.engine.admits move = true → (s.engine.move move).job? = some plan)
    (same : plan.file = job.file) : Stands job row (s.act act) := by
  obtain ⟨busy, waits⟩ := Bool.and_eq_true_iff.mp admitted
  have still {t : Session} (stage : t.engine.stage = s.engine.stage)
      (stands : ReadyOrClosed job row t) : Stands job row t :=
    (stands_of_busy (stage ▸ busy)).mpr stands
  cases act with
  | engine move =>
    let next := { s with engine := s.engine.move move }
    have onward : ReadyOrClosed job row next := stands.imp id fun ready => { ready with }
    obtain ⟨stage, state⟩ : (s.act (.engine move)).engine.stage = (s.engine.move move).stage ∧
        (s.act (.engine move)).engine.state = (s.engine.move move).state := by
      obtain same | settled := s.follow_engine (s.engine.move move)
      · exact ⟨congrArg Engine.stage same, congrArg Engine.state same⟩
      · exact ⟨settled.stage, settled.state⟩
    unfold Stands
    rw [stage, state]
    simp only [Session.act, follow, busy]
    cases (s.engine.move move).stage with
    | ended outcome => exact onward.settle (given move waits) same outcome
    | _ => exact onward
  | close confirmed =>
    refine still ?_ ?_
    · obtain same | stopping := s.beginClose_engine confirmed
      · exact congrArg Engine.stage same
      · simp [Session.act, stopping]
    · simp only [Session.act, beginClose]
      split
      · split
        · exact stands
        · exact stands.imp id fun ready => { ready with }
      · exact .inl rfl
  | await =>
    refine still (congrArg Engine.stage s.awaitTask_engine) ?_
    simp only [Session.act, awaitTask]
    split
    · exact .inl rfl
    · exact stands.imp id fun ready => { ready with }
    · exact .inl rfl
    · exact stands

end

theorem Begins.ready {s begun : Session} (begins : s.Begins begun) {job : Job} {row : Int}
    (ready : Ready job row s) : Ready job row begun := by
  obtain ⟨file, mapping, lists, pending, at_row, calendar⟩ := ready
  have run {ran : Session} {error : Except SessionError Unit} (started : s.run = (error, ran)) :
      Ready job row ran := by
    simp only [Session.run, file, pending, Option.isSome_none, Bool.false_eq_true, if_false]
      at started
    split at started <;> obtain ⟨_, rfl⟩ := Prod.mk.inj started <;>
      exact ⟨rfl, mapping, lists, rfl, at_row, calendar⟩
  obtain started | started := begins
  · exact run started
  · obtain ⟨ran, started', rfl⟩ := begin_run started
    exact { run started' with }

/-- What a run leaves of its session: it is closed, or it stands ready to go on. -/
theorem Runs.stands {s reached : Session} (runs : s.Runs reached) {job : Job} {row : Int}
    (ready : Ready job row s) : Stands job row reached := by
  obtain ⟨begun, acts, begins, acted⟩ := runs
  obtain ⟨file, opened, started⟩ := begins.start
  obtain rfl : file = job.file := Option.some.inj (opened.symm.trans ready.file)
  obtain ⟨kept, dropped, valid⟩ := Engine.valid_of_start started
  -- Only the act that ends the run moves the row, and no act follows it.
  induction acted with
  | none =>
    exact (stands_of_busy (Engine.isBusy_of_start started)).mpr (.inr (begins.ready ready))
  | @next acts t act before admitted ih =>
    obtain ⟨moves, new, e, course, after⟩ :=
      Runs.course ⟨begun, acts, begins, before⟩ ready.file valid
    obtain ⟨busy, _⟩ := Bool.and_eq_true_iff.mp admitted
    have same : t.engine = e := by
      obtain same | settled := after
      · exact same
      · rw [settled.stage, settled.ended] at busy
        cases busy
    have given (move : Move) (waits : t.engine.admits move = true) :
        (t.engine.move move).job?
          = some (Engine.planOf ⟨job.file, s.mapping, s.lists, s.calendar⟩ kept) := by
      obtain ⟨_, moved⟩ := course.of_move _ move (same ▸ waits)
      rw [same]
      exact moved.placed.job
    exact ((stands_of_busy busy).mp ih).act act admitted given rfl

/-- Where the stored progress is that of no row of the file, nothing is offered with it. -/
theorem openText_outside {s : Session} {name text : Text} {file : ContactFile} {c : Checkpoint}
    (parsed : ContactFile.parse name text (.scalar ',') ContactFile.defaultPreview = .ok file)
    (idle : s.isActive = false) (served : ∀ n, s.engine.store.storage.refuses n .get = none)
    (held : s.engine.store.Holds s.workspace name c) (sound : c.Sound) (named : c.fileName = name)
    (outside : ¬ (0 ≤ c.row ∧ c.row < c.totalRows)) :
    ∃ opened, s.openText name text = (.ok none, opened) ∧
      Ready ⟨file, Mapping.suggest file.headers, s.lists, s.calendar⟩ 0 opened := by
  obtain rfl : c.fileName = name := named
  have same : file.name = c.fileName := ContactFile.parse_name parsed
  have loaded := ProgressStore.load_outside (served _) held sound outside
  let suggested := { s with file? := some file }.startOver file
  have refused : (suggested.engine.store.load suggested.workspace file.name) = _ := same ▸ loaded
  have inactive : s.engine.state.status.isActive = false := idle
  simp only [openText, useLoaded, parsed, useFile, isActive, inactive, loadProgress]
  rw [show _ = _ from refused]
  exact ⟨_, rfl, rfl, rfl, rfl, rfl, rfl, rfl⟩

def Spares (row : Int) (s : Session) : Prop :=
  ∀ next later, Between s next → next.Runs later →
    ∀ call ∈ next.engine.callsSince later.engine, row ≤ call.1

theorem Ready.spares {s : Session} {job : Job} {row : Int} (ready : Ready job row s)
    (low : 0 ≤ row) (high : row ≤ job.file.totalRows) : s.Spares row := by
  intro next later between runs
  obtain ⟨file, at_row⟩ := between.fields
  rw [ready.row] at at_row
  subst at_row
  exact runs.calls_ge (file.trans ready.file) low high

theorem spares_of_closed {s : Session} (closed : s.file? = none) (row : Int) : s.Spares row := by
  intro next later between runs
  obtain ⟨_, _, begins, _⟩ := runs
  obtain ⟨file, opened, _⟩ := begins.start
  rw [between.fields.1, closed] at opened
  cases opened

/-- A run that was stopped, and that returned, leaves its session ready at the row where it stopped, if
the file goes on there: no run of that session sends a row before that one. Nor does a run of a
session that reopens the text, to which the progress of that row is offered and which accepts it. At
the end of the file both go back to the first row, and after a run that did not return the session
goes back to the row where that run began. -/
theorem next_run_onward {job : Job} {mapping : Mapping} {dropped : List Text} {text : Text}
    (storable : job.Storable)
    (valid : job.mapping.validate job.file.headers = .ok (mapping, dropped))
    (parsed : ContactFile.parse job.file.name text (.scalar ',') ContactFile.defaultPreview
      = .ok job.file) {s reached : Session} {row : Int} (ready : Ready job row s)
    (clock : (Binary64.ofInt? s.engine.store.now).isSome = true) (runs : s.Runs reached)
    {outcome : Outcome} (ended : reached.engine.stage = .ended outcome)
    (stopped : reached.engine.state.status = .cancelled ∨ reached.engine.state.status = .failed) :
    let total : Int := job.file.totalRows
    let last := reached.engine.state.row
    0 ≤ last ∧ last ≤ total ∧
      (reached.file? = none ∨
        Ready job (if outcome = .finished then if last < total then last else 0 else row) reached ∧
          ∃ begun, reached.run = (.ok (), begun)) ∧
      (outcome = .finished → last < total → reached.Spares last) ∧
      ((∀ event ∈ s.engine.since reached.engine, event.isLoss = false) →
        ∀ next, Reopens job.file.name reached next →
          (last < total → ∃ c opened resumed begun,
            next.openText job.file.name text = (.ok (some c), opened) ∧ c.row = last ∧
              opened.resumeProgress = (.ok [], resumed) ∧ resumed.run = (.ok (), begun) ∧
              resumed.Spares last) ∧
          (last = total → ∃ opened, next.openText job.file.name text = (.ok none, opened) ∧
            opened.resumeRow = 0)) := by
  intro total last
  obtain ⟨reach, span⟩ := runs.span ready.file (by rw [ready.mapping]; exact valid)
  rw [ready.mapping, ready.lists, ready.calendar] at span
  have low : 0 ≤ last := by
    have begun := span.begun
    omega
  have high : last ≤ total := by
    have behind := span.behind
    have within : reach ≤ job.file.totalRows := span.high
    omega
  have stands : ReadyOrClosed job
      (if outcome = .finished then if last < total then last else 0 else row) reached := by
    have stands := runs.stands ready
    have incomplete : reached.engine.state.status ≠ .completed := by
      obtain status | status := stopped <;> simp [status]
    simp only [Stands, ended] at stands
    cases outcome with
    | finished => simpa only [rowAfter, incomplete, if_false, if_true] using stands
    | failed failure | interrupted => exact stands
  refine ⟨low, high, stands.imp id fun ready => ⟨ready, ready.run ?_ valid⟩, ?_, ?_⟩
  · obtain status | status := stopped <;> simp [isActive, status, Status.isActive]
  · rintro rfl left
    rw [if_pos rfl, if_pos left] at stands
    obtain closed | ready := stands
    · exact spares_of_closed closed last
    · exact ready.spares low high
  · intro lossless next reopens
    have kept := span.kept lossless stopped
    have bounded : Engine.Bounded s.engine (Engine.planOf job mapping) := ⟨storable.rows, clock⟩
    refine ⟨fun left => ?_, fun at_end => ?_⟩
    · obtain ⟨c, opened, resumed, offered, at_row, accepted, ready', idle, _⟩ :=
        Reopens.resumes storable valid parsed kept bounded span.total low left
          (runs.calendar.trans ready.calendar) reopens
      obtain ⟨_, _, again⟩ := Mapping.validate_validated valid
      obtain ⟨begun, started⟩ := ready'.run idle again
      rw [at_row] at ready'
      exact ⟨c, opened, resumed, begun, offered, at_row, accepted, started, ready'.spares low high⟩
    · obtain ⟨c, held, sound, named, at_row, of_total, _⟩ :=
        reopens.held storable valid kept bounded span.total low high
      obtain ⟨opened, refused, fresh⟩ := openText_outside parsed reopens.idle reopens.served held
        sound named (by omega)
      exact ⟨opened, refused, fresh.row⟩

def singly : Session :=
  { sample with engine := { Engine.sample with batchSize := 1, batchSize_pos := Nat.one_pos } }

/-- After it was cancelled behind its first batch, the sample goes on with its second row. -/
theorem next_run_onward_sample :
    ∃ reached, singly.Runs reached ∧ reached.engine.state.status = .cancelled ∧
      reached.engine.state.row = 1 ∧ reached.Spares 1 ∧ ∃ begun, reached.run = (.ok (), begun) := by
  let acts : List Act :=
    [.engine (.answer .accepted), .engine (.acknowledge none), .engine (.acknowledge none),
      .engine (.operate .cancel), .engine .proceed, .engine (.acknowledge none)]
  have came : (singly.run.2.after? acts).map (fun reached =>
      (reached.engine.stage.outcome?, reached.engine.state.status, reached.engine.state.row,
        reached.file?.isSome)) = some (some .finished, .cancelled, 1, true) := by
    decide +kernel
  have parsed : ContactFile.parse sampleJob.file.name sampleText (.scalar ',')
      ContactFile.defaultPreview = .ok sampleJob.file := by
    rfl
  have ready : Ready sampleJob 0 singly := ⟨rfl, rfl, rfl, rfl, rfl, rfl⟩
  obtain ⟨reached, acted, shown⟩ := Option.map_eq_some_iff.mp came
  simp only [Prod.mk.injEq] at shown
  obtain ⟨ended, cancelled, at_row, opened⟩ := shown
  have runs := ready.runs_of_after? rfl sampleJob_valid acted
  obtain ⟨_, _, stands, spares, _⟩ := next_run_onward sampleJob_storable sampleJob_valid parsed ready
    (by decide +kernel) runs (Stage.outcome?_eq_some.mp ended) (.inl cancelled)
  obtain closed | ⟨_, begins⟩ := stands
  · simp [closed] at opened
  · rw [at_row] at spares
    exact ⟨reached, runs, cancelled, at_row, spares rfl (by decide), begins⟩

/-- A run of the sample that is cancelled during its last delivery has passed all rows. The next run
sends the first of them again. -/
theorem passed_rows_sent_again :
    ∃ reached later, sample.Runs reached ∧ reached.engine.stage = .ended .finished ∧
      reached.engine.state.status = .cancelled ∧ reached.engine.state.row = 2 ∧
      reached.Runs later ∧ (reached.engine.callsSince later.engine).map Prod.fst = [0] := by
  let acts : List Act :=
    [.engine (.answer .accepted), .engine (.acknowledge none), .engine (.operate .cancel),
      .engine (.answer .accepted), .engine (.acknowledge none), .engine (.acknowledge none),
      .engine .proceed, .engine (.acknowledge none)]
  have came : (sample.run.2.after? acts).map (fun reached =>
      (reached.engine.stage.outcome?, reached.engine.state.status, reached.engine.state.row,
        reached.file?.isSome, (reached.engine.callsSince reached.run.2.engine).map Prod.fst))
      = some (some .finished, .cancelled, 2, true, [0]) := by
    decide +kernel
  obtain ⟨reached, acted, shown⟩ := Option.map_eq_some_iff.mp came
  simp only [Prod.mk.injEq] at shown
  obtain ⟨ended, cancelled, at_row, opened, sent⟩ := shown
  have runs := sample_ready.runs_of_after? rfl sampleJob_valid acted
  have stands := runs.stands sample_ready
  simp only [Stands, Stage.outcome?_eq_some.mp ended] at stands
  obtain closed | ready := stands
  · simp [closed] at opened
  · obtain ⟨begun, started⟩ := ready.run (by simp [isActive, cancelled, Status.isActive])
      sampleJob_valid
    rw [started] at sent
    exact ⟨reached, begun, runs, Stage.outcome?_eq_some.mp ended, cancelled, at_row,
      ⟨begun, [], .inl started, .none⟩, sent⟩

end Session
end Intake
