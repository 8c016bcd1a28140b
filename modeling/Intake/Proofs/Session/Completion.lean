import Intake.Proofs.Run.Ending
import Intake.Proofs.Run.Keeping
import Intake.Proofs.Session.Chain

/-! What a session does when its run has ended, whichever calls its storage refuses. A completed run is
announced once and its progress is cleared; if that fails, the progress at the end of the file that
the last batch has saved is not offered either. A run that was cancelled or has failed is not
announced, and its progress is kept. -/
namespace Intake

namespace Event

def announcement? : Event → Option Announcement
  | published announcement => some announcement
  | _ => none

def isClearing : Event → Bool
  | stored (.cleared _) | stored (.clearFailed ..) => true
  | _ => false

def isCleared : Event → Bool
  | stored (.cleared _) => true
  | _ => false

/-- What tells of the storage by telling of a save announces and clears nothing. -/
theorem quiet_of_isSave {event : Event} (saves : event.isKeeping = true → event.isSave = true) :
    event.announcement? = none ∧ event.isClearing = false := by
  cases event with
  | published announcement => cases saves rfl
  | stored event =>
    refine ⟨rfl, ?_⟩
    cases event <;> first | rfl | cases saves rfl
  | _ => exact ⟨rfl, rfl⟩

end Event

theorem ProgressStore.isClearing_clear (store : ProgressStore) (workspace fileName : Text) :
    (Event.stored (store.clear workspace fileName).1).isClearing = true := by
  obtain ⟨error, next, failed⟩ | ⟨next, cleared, _⟩ := store.clear_cases workspace fileName
  · rw [failed]
    rfl
  · rw [cleared]
    rfl

namespace Engine
variable {before e : Engine} {plan : Job}

def announced (e : Engine) (fileName : Text) : Engine :=
  (({ e with store := (e.store.clear e.workspace fileName).2 }.note
    (.stored (e.store.clear e.workspace fileName).1))).note
    (.published ⟨e.state.success, e.state.failure, e.workspace⟩)

def settled (e : Engine) (job : Job) : Engine :=
  if e.state.status = .completed then e.announced job.file.name else e

@[simp] theorem settled_fields (e : Engine) (job : Job) :
    (e.settled job).state = e.state ∧ (e.settled job).stage = e.stage := by
  unfold settled
  split_ifs <;> exact ⟨rfl, rfl⟩

theorem since_announced {told : List Event} (journal : e.journal = told ++ before.journal)
    (fileName : Text) :
    before.since (e.announced fileName) = told.reverse
      ++ [.stored (e.store.clear e.workspace fileName).1,
        .published ⟨e.state.success, e.state.failure, e.workspace⟩] := by
  let settling : List Event := [.published ⟨e.state.success, e.state.failure, e.workspace⟩,
    .stored (e.store.clear e.workspace fileName).1]
  have ended : (e.announced fileName).journal = (settling ++ told) ++ before.journal := by
    simp [announced, journal, settling]
  rw [since_of_append ended, List.reverse_append]
  rfl

/-- Where the progress of a file is exhausted or is cleared now, none is offered. -/
theorem spent_announced {fileName : Text}
    (done : e.store.Exhausted (e.workspace, fileName) ∨
      (e.store.clear e.workspace fileName).1 = .cleared fileName) :
    (e.announced fileName).store.Spent (e.workspace, fileName) := by
  obtain exhausted | cleared := done
  · exact ProgressStore.Spent.run (a := .clear e.workspace fileName) (.inr exhausted) trivial
  · obtain ⟨error, next, failed⟩ | ⟨next, done, empty⟩ := e.store.clear_cases e.workspace fileName
    · rw [failed] at cleared
      cases cleared
    · left
      simp only [announced, note_fields, done]
      exact empty

theorem move_of_isInterruption {move : Move} (interrupts : move.isInterruption = true)
    (admitted : e.admits move = true) :
    (e.move move).stage = .ended .interrupted ∧ (e.move move).state.status = .cancelled := by
  cases move with
  | answer reply =>
    cases reply <;> cases interrupts
    cases stage : e.stage <;> simp [admits, stage] at admitted
    simp [Engine.move, answer, stage]
  | interrupt =>
    cases stage : e.stage <;> simp [admits, stage] at admitted <;>
      simp [Engine.move, interrupt, stage]
  | _ => cases interrupts

end Engine

namespace Session
variable {s begun reached : Session} {plan : Job} {acts : List Act}

theorem settleState_engine_eq (s : Session) (job : Job) :
    (s.settleState job.file).engine = s.engine.settled job := by
  unfold settleState Engine.settled
  dsimp only
  split_ifs <;> rfl

theorem settle_engine_eq (given : s.engine.job? = some plan) {outcome : Outcome}
    (comes : outcome = .finished ∨ s.engine.state.status ≠ .completed) :
    (s.settle outcome).engine = s.engine.settled plan := by
  have finish (t : Session) (result : Except SessionError Outcome) :
      (if t.runsTask then t.finishTask result else t).engine = t.engine := by
    split_ifs
    · exact finishTask_engine _ _
    · rfl
  unfold settle
  cases outcome with
  | finished => simp only [given, finish, settleState_engine_eq]
  | failed failure | interrupted =>
    have other : s.engine.state.status ≠ .completed := comes.resolve_left (by simp)
    simp only [finish, Engine.settled, if_neg other]

/-- The move that ends a run has it settled, unless its last notice fails. -/
theorem act_ended {move : Move} {outcome : Outcome} (busy : s.engine.stage.isBusy = true)
    (waits : s.engine.admits move = true) (unraised : ∀ failure, move ≠ .acknowledge (some failure))
    (given : (s.engine.move move).job? = some plan)
    (ended : (s.engine.move move).stage = .ended outcome) :
    (s.act (.engine move)).engine = (s.engine.move move).settled plan := by
  have followed : s.act (.engine move)
      = { s with engine := s.engine.move move }.settle outcome := by
    simp only [act, follow, busy, ended]
  rw [followed]
  apply settle_engine_eq given
  obtain before | interrupts | ⟨_, failure?, rfl, came⟩ := Engine.ended_move ended
  · rw [before] at busy
    cases busy
  · right
    simp [(Engine.move_of_isInterruption interrupts waits).2]
  · left
    cases failure? with
    | none => exact came
    | some failure => exact absurd rfl (unraised failure)

/-- While a run goes on its session leaves the engine alone, and settles it when the run ends. -/
theorem Acts.settled (acted : s.Acts acts reached) (going : s.engine.stage.isBusy = true)
    (unraised : ∀ failure, .engine (.acknowledge (some failure)) ∉ acts)
    (given : ∀ moves e, s.engine.Moves moves e → e.job? = some plan) :
    ∃ moves e, s.engine.Moves moves e ∧
      (reached.engine = e ∧ e.stage.outcome? = none ∨
        reached.engine = e.settled plan ∧ e.stage.outcome?.isSome = true) := by
  induction acted with
  | none => exact ⟨[], _, .none, .inl ⟨rfl, Stage.outcome?_of_isBusy going⟩⟩
  | @next earlier middle act acted admitted ih =>
    obtain ⟨busy, waits⟩ := Bool.and_eq_true_iff.mp admitted
    obtain ⟨moves, e, moved, still⟩ :=
      ih fun failure here => unraised failure (List.mem_append_left _ here)
    have same : middle.engine = e := by
      obtain ⟨same, _⟩ | ⟨same, ended⟩ := still
      · exact same
      · rw [same, (e.settled_fields plan).2] at busy
        rw [Stage.outcome?_of_isBusy busy] at ended
        cases ended
    subst same
    cases act with
    | engine move =>
      have onward : s.engine.Moves (moves ++ [move]) (middle.engine.move move) :=
        .next move moved waits
      refine ⟨_, _, onward, ?_⟩
      cases stage : (middle.engine.move move).stage with
      | ended outcome =>
        refine .inr ⟨act_ended busy waits ?_ (given _ _ onward) stage, by simp [Stage.outcome?]⟩
        rintro failure rfl
        exact unraised failure (by simp)
      | _ =>
        refine .inl ⟨?_, rfl⟩
        simp only [Session.act, follow, busy, stage]
    | close confirmed =>
      obtain ⟨closing, closed, stage⟩ := moves_beginClose moved confirmed
      exact ⟨closing, _, closed, .inl ⟨rfl, stage ▸ Stage.outcome?_of_isBusy busy⟩⟩
    | await => exact ⟨moves, _, moved, .inl ⟨middle.awaitTask_engine, Stage.outcome?_of_isBusy busy⟩⟩

/-- A run that has ended has followed a course to a terminal status, and was settled then. -/
theorem Begins.settled (begins : s.Begins begun) (acted : begun.Acts acts reached)
    (unraised : ∀ failure, .engine (.acknowledge (some failure)) ∉ acts)
    (rested : reached.engine.stage.isBusy = false) {file : ContactFile} {kept : Mapping}
    {dropped : List Text} (opened : s.file? = some file)
    (valid : s.mapping.validate file.headers = .ok (kept, dropped)) :
    ∃ moves new e, Engine.Course s.engine (Engine.planOf ⟨file, s.mapping, s.lists, s.calendar⟩ kept)
        (Engine.resumeRow file s.resumeRow) moves new .stage e ∧
      e.state.status.isTerminal = true ∧
      reached.engine = e.settled (Engine.planOf ⟨file, s.mapping, s.lists, s.calendar⟩ kept) := by
  obtain ⟨file', opened', started⟩ := begins.start
  obtain rfl : file' = file := Option.some.inj (opened'.symm.trans opened)
  obtain ⟨e₀, first, same⟩ := Engine.start_valid s.engine ⟨file', s.mapping, s.lists, s.calendar⟩ s.resumeRow
    (Engine.idle_of_start started) valid
  have engine : begun.engine = e₀.nextBatch := congrArg Prod.snd (started.symm.trans same)
  have course {moves : List Move} {e : Engine} (moved : begun.engine.Moves moves e) :
      ∃ new, Engine.Course s.engine (Engine.planOf ⟨file', s.mapping, s.lists, s.calendar⟩ kept)
        (Engine.resumeRow file' s.resumeRow) moves new .stage e :=
    Engine.Course.of_moves first (engine ▸ moved)
  obtain ⟨moves, e, moved, still⟩ := acted.settled (Engine.isBusy_of_start started) unraised
    fun moves e moved => (course moved).choose_spec.placed.job
  obtain ⟨new, course⟩ := course moved
  have fits := course.placed.fits
  obtain ⟨same, unended⟩ | ⟨same, ended⟩ := still
  · rw [same] at rested
    cases stage : e.stage <;> simp_all [Stage.isBusy, Stage.outcome?, Point.Fits]
  · refine ⟨moves, new, e, course, ?_, same⟩
    cases stage : e.stage <;> simp_all [Stage.outcome?, Point.Fits]

private theorem mapped_of_valid {job : Job} {kept : Mapping} {dropped : List Text}
    (distinct : (Entries.keys job.mapping).Nodup)
    (valid : job.mapping.validate job.file.headers = .ok (kept, dropped)) :
    (Engine.planOf job kept).Mapped := by
  obtain ⟨fitting, _⟩ := Mapping.validate_validated valid
  have part := Mapping.validate_restrict valid
  refine ⟨?_, fun entry here => ?_⟩
  · have once := @Mapping.nodup_restrict job.file.headers _ distinct
    rwa [part] at once
  · obtain ⟨known, shown, _⟩ := fitting.fits entry here
    exact ⟨Attribute.isJoined_of_isKnown known, shown⟩

structure Concluded (s reached : Session) (file : ContactFile) : Prop where
  terminal : reached.engine.state.status.isTerminal = true
  /-- a completed run is announced once, with its final counts, and no other run is -/
  announced : (s.engine.since reached.engine).filterMap Event.announcement?
    = if reached.engine.state.status = .completed then
        [⟨reached.engine.state.success, reached.engine.state.failure, s.workspace⟩]
      else []
  /-- once a completed run has saved progress at the end of the file, or its progress was cleared, none
  is offered, whatever is done with the store and however that fails, until something is saved -/
  spent : reached.engine.state.status = .completed →
    (∃ event ∈ s.engine.since reached.engine, event.savesEnd file = true) ∨
      .stored (.cleared file.name) ∈ s.engine.since reached.engine →
    ∀ later : List StoreAct, (∀ a ∈ later,
        a.Misses reached.engine.store.storage.medium.isMemory (s.workspace, file.name)) →
      ((reached.engine.store.after later).load s.workspace file.name).1 = .ok none
  /-- any other run clears no progress, and where some was stored, some is stored -/
  kept : reached.engine.state.status ≠ .completed →
    (∀ event ∈ s.engine.since reached.engine, event.isClearing = false) ∧
      ∀ t, s.engine.store.storage.medium.get (progressKey s.workspace file.name) = .ok (some t) →
        ∃ t', reached.engine.store.storage.medium.get (progressKey s.workspace file.name)
          = .ok (some t')

section
variable {e : Engine} {first : Nat} {moves : List Move} {new : List Event}

private theorem unannounced {told : List Event}
    (saves : ∀ event ∈ told, event.isKeeping = true → event.isSave = true) :
    told.reverse.filterMap Event.announcement? = [] := by
  refine List.filterMap_eq_nil_iff.mpr fun event here => ?_
  exact (Event.quiet_of_isSave (saves event (List.mem_reverse.mp here))).1

private theorem concluded_completed (course : Engine.Course s.engine plan first moves new .stage e)
    (mapped : plan.Mapped) (bounded : Engine.Bounded s.engine plan)
    (completed : e.state.status = .completed)
    (announced : reached.engine = e.announced plan.file.name) : Concluded s reached plan.file := by
  obtain ⟨told, journal, saves, ends⟩ := course.told mapped bounded
  have workspace : e.workspace = s.workspace := course.placed.workspace
  have state : reached.engine.state = e.state := by
    rw [announced]
    rfl
  have since := Engine.since_announced journal plan.file.name
  rw [← announced] at since
  refine ⟨?_, ?_, ?_, fun other => absurd (state ▸ completed) other⟩
  · rw [state, completed]
    rfl
  · rw [since, List.filterMap_append, unannounced saves, state, if_pos completed, ← workspace]
    rfl
  · intro _ done later miss
    refine (ProgressStore.Spent.after ?_ miss).load
    rw [announced, ← workspace]
    apply Engine.spent_announced
    simp only [since, List.mem_append, List.mem_reverse, List.mem_cons, List.not_mem_nil,
      or_false] at done
    obtain ⟨event, here | rfl | rfl, last⟩ | here | cleared | other := done
    · left
      rw [workspace]
      exact ends event here last
    · have clearing := e.store.isClearing_clear e.workspace plan.file.name
      have quiet := Event.quiet_of_isSave fun _ => Event.isSave_of_savesEnd last
      rw [quiet.2] at clearing
      cases clearing
    · cases last
    · cases (Event.quiet_of_isSave (saves _ here)).2
    · right
      exact (Event.stored.inj cleared).symm
    · cases other

private theorem concluded_stopped (course : Engine.Course s.engine plan first moves new .stage e)
    (mapped : plan.Mapped) (bounded : Engine.Bounded s.engine plan)
    (terminal : e.state.status.isTerminal = true) (stopped : e.state.status ≠ .completed)
    (same : reached.engine = e) : Concluded s reached plan.file := by
  obtain ⟨told, journal, saves, _⟩ := course.told mapped bounded
  have since : s.engine.since e = told.reverse := Engine.since_of_append journal
  subst same
  refine ⟨terminal, ?_, fun completed => absurd completed stopped, fun _ => ⟨?_, ?_⟩⟩
  · rw [since, unannounced saves, if_neg stopped]
  · rw [since]
    exact fun event here => (Event.quiet_of_isSave (saves event (List.mem_reverse.mp here))).2
  · exact (course.keeping mapped bounded).text

end

theorem run_refused {next : Session} {error : SessionError} (refused : s.run = (.error error, next)) :
    next.engine.journal = s.engine.journal ∧ next.engine.store = s.engine.store := by
  have started (job : Job) (row : Int) {error : StartError} {engine : Engine}
      (refused : s.engine.start job row = (.error error, engine)) :
      engine.journal = s.engine.journal ∧ engine.store = s.engine.store := by
    unfold Engine.start at refused
    dsimp only at refused
    split at refused
    · cases refused
      exact ⟨rfl, rfl⟩
    · split at refused
      · cases refused
        split_ifs <;> exact ⟨rfl, rfl⟩
      · cases refused
  unfold run at refused
  split at refused
  · cases refused
    exact ⟨rfl, rfl⟩
  · split at refused
    · cases refused
      exact ⟨rfl, rfl⟩
    · split at refused <;> cases refused
      rename_i refused
      exact started _ _ refused

/-- A run that begins, and whose notices all return, comes to its conclusion when it ends, whichever
calls its storage refuses and whatever its operator does. A run that is refused tells nothing. -/
theorem run_concluded {file : ContactFile} (opened : s.file? = some file)
    (rows : file.totalRows < 2 ^ 63) (distinct : (Entries.keys s.mapping).Nodup)
    (clock : (Binary64.ofInt? s.engine.store.now).isSome = true) :
    (∀ begun acts reached, s.Begins begun → begun.Acts acts reached →
      (∀ failure, .engine (.acknowledge (some failure)) ∉ acts) →
      reached.engine.stage.isBusy = false → Concluded s reached file) ∧
    ∀ error next, s.run = (.error error, next) →
      next.engine.journal = s.engine.journal ∧ next.engine.store = s.engine.store := by
  refine ⟨?_, fun error next => run_refused⟩
  intro begun acts reached begins acted unraised rested
  obtain ⟨file', opened', started⟩ := begins.start
  obtain rfl : file' = file := Option.some.inj (opened'.symm.trans opened)
  obtain ⟨kept, dropped, valid⟩ := Engine.valid_of_start started
  obtain ⟨moves, new, e, course, terminal, same⟩ :=
    begins.settled acted unraised rested opened valid
  let job : Job := ⟨file', s.mapping, s.lists, s.calendar⟩
  have mapped : (Engine.planOf job kept).Mapped := mapped_of_valid distinct valid
  have bounded : Engine.Bounded s.engine (Engine.planOf job kept) := ⟨rows, clock⟩
  by_cases completed : e.state.status = .completed
  · rw [Engine.settled, if_pos completed] at same
    exact concluded_completed course mapped bounded completed same
  · rw [Engine.settled, if_neg completed] at same
    exact concluded_stopped course mapped bounded terminal completed same

def sampleUnclearable : Session :=
  let refuses (_ : Nat) (access : Access) : Option Text :=
    if access = .remove then some "read-only" else none
  let storage := { sample.engine.store.storage with refuses }
  { sample with engine := { sample.engine with store := { sample.engine.store with storage } } }

def sampleWhole : List Act :=
  [.engine (.answer .accepted), .engine (.acknowledge none), .engine (.answer .accepted),
    .engine (.acknowledge none), .engine (.acknowledge none), .engine .proceed,
    .engine (.acknowledge none)]

/-- The sample is completed and announced, and its progress cannot be cleared; still none is offered
later. -/
theorem run_concluded_unclearable :
    ∃ reached, sampleUnclearable.Runs reached ∧ reached.engine.state.status = .completed ∧
      (∀ event ∈ sampleUnclearable.engine.since reached.engine, event.isCleared = false) ∧
      (sampleUnclearable.engine.since reached.engine).filterMap Event.announcement?
        = [⟨2, 0, "w"⟩] ∧
      ((reached.engine.store.after [.clock 1000, .clear "w" "people.csv"]).load "w"
        "people.csv").1 = .ok none := by
  have ran : (sampleUnclearable.run.2.after? sampleWhole).map (fun reached =>
      (reached.engine.state.status, reached.engine.stage.isBusy, reached.engine.state.success,
        reached.engine.state.failure,
        (sampleUnclearable.engine.since reached.engine).any fun event =>
          event.savesEnd sampleJob.file,
        (sampleUnclearable.engine.since reached.engine).all fun event => !event.isCleared))
      = some (.completed, false, 2, 0, true, true) := by
    decide +kernel
  obtain ⟨reached, acted, shown⟩ := Option.map_eq_some_iff.mp ran
  simp only [Prod.mk.injEq] at shown
  obtain ⟨completed, rested, success, failure, saved, uncleared⟩ := shown
  have ready : Ready sampleJob 0 sampleUnclearable := ⟨rfl, rfl, rfl, rfl, rfl, rfl⟩
  obtain ⟨begun, started⟩ := ready.run rfl sampleJob_valid
  rw [started] at acted
  have acts := reaches_iff.mpr acted
  have concluded := (run_concluded ready.file (by decide) (by decide) (by decide +kernel)).1
    begun sampleWhole reached (.inl started) acts (by simp [sampleWhole]) rested
  refine ⟨reached, ⟨begun, sampleWhole, .inl started, acts⟩, completed, ?_, ?_, ?_⟩
  · simpa using uncleared
  · rw [concluded.announced, if_pos completed, success, failure]
    rfl
  · refine concluded.spent completed (.inl (List.any_eq_true.mp saved)) _ ?_
    intro a here
    simp only [List.mem_cons, List.not_mem_nil, or_false] at here
    rcases here with rfl | rfl <;> trivial

end Session
end Intake
