import Intake.Proofs.Run.Batches
import Intake.Proofs.Session.Completion
import Intake.Proofs.Session.Edits

/-! Closing a session while its run is active. Whoever closes it waits until the run has been stopped,
so that a session that says that it is closed has no delivery in flight and none to come, and the
progress that is stored is that of the row where the run stopped. -/
namespace Intake.Session

def Waits (s : Session) (confirmed : Option Bool) (steps : List Doing) (waiting : Session) : Prop :=
  ∃ stopping began, s.beginClose confirmed = (.stopping, stopping) ∧
    stopping.awaitTask = (none, began) ∧ began.Does steps waiting

/-- How the closing of a session is answered, after what happens while it waits for its task. -/
inductive Closes (s : Session) (confirmed : Option Bool) : List Doing → Bool → Session → Prop
  | atOnce {closed : Session} (began : s.beginClose confirmed = (.closed, closed)) :
      Closes s confirmed [] true closed
  | declined {still : Session} (began : s.beginClose confirmed = (.declined, still)) :
      Closes s confirmed [] false still
  | settled {stopping closed : Session} (began : s.beginClose confirmed = (.stopping, stopping))
      (done : stopping.awaitTask = (some (.ok .finished), closed)) :
      Closes s confirmed [] true closed
  | waited {steps : List Doing} {closed : Session} (waits : s.Waits confirmed steps closed)
      (ended : closed.engine.stage = .ended .finished) : Closes s confirmed steps true closed

structure Vacant (s : Session) : Prop where
  file : s.file? = none
  mapping : s.mapping = []
  pending : s.pending? = none
  resumeRow : s.resumeRow = 0

structure Underway (s : Session) : Prop where
  task : s.task = .underway
  runsTask : s.runsTask = true

structure Awaiting (plan : Job) (lapsed : Nat) (s : Session) : Prop extends Underway s where
  engine : Engine.Stopping plan lapsed s.engine
  closing : s.closing = true
  going : s.engine.stage.outcome? = none

structure Halted (plan : Job) (lapsed : Nat) (s : Session) : Prop where
  engine : Engine.Stopping plan lapsed s.engine
  ended : s.engine.stage.outcome?.isSome = true
  vacant : s.engine.stage = .ended .finished → s.Vacant

section
variable {plan : Job} {lapsed : Nat} {s begun here : Session} {done : List Doing}

theorem vacant_forget (s : Session) : s.forget.Vacant := ⟨rfl, rfl, rfl, rfl⟩

theorem Underway.aside {next : Session} (underway : s.Underway) (aside : s.Aside next) :
    next.Underway :=
  ⟨aside.task.trans underway.task, aside.runsTask.trans underway.runsTask⟩

/-- Closing leaves an active session as it is if it is declined, and else asks its run to stop. -/
theorem beginClose_active (active : s.isActive = true) (confirmed : Option Bool) :
    s.beginClose confirmed = if confirmed = some false then (.declined, s)
      else (.stopping, { s with engine := (s.engine.save.operate .cancel).2 }) := by
  rw [beginClose, if_pos active]
  rfl

theorem awaitTask_underway (underway : s.Underway) :
    s.awaitTask = (none, { s with closing := true }) := by
  rw [awaitTask, underway.task]

theorem follow_unended {engine : Engine} (unended : engine.stage.outcome? = none) :
    s.follow engine = { s with engine } := by
  unfold follow
  cases stage : engine.stage with
  | ended outcome => simp [stage, Stage.outcome?] at unended
  | _ => cases s.engine.stage.isBusy <;> rfl

theorem stage_follow (s : Session) (engine : Engine) :
    (s.follow engine).engine.stage = engine.stage := by
  obtain same | settled := s.follow_engine engine
  · rw [same]
  · exact settled.stage

theorem Aside.stage {next : Session} (aside : s.Aside next) :
    next.engine.stage = s.engine.stage := by
  obtain ⟨_, _, engine, _⟩ := aside.engine
  rw [engine]

/-- The task of a session stays under way until its run has ended. -/
theorem Does.underway (did : begun.Does done here) (underway : begun.Underway)
    (unended : here.engine.stage.outcome? = none) : here.Underway := by
  -- Only the move that ends the run ends the task.
  induction did with
  | none => exact underway
  | @next done here step _ allowed ih =>
    cases step with
    | act act =>
      have busy := (Bool.and_eq_true_iff.mp (admits_of_allows allowed)).1
      have before := ih (Stage.outcome?_of_isBusy busy)
      cases act with
      | engine move =>
        have going : (here.engine.move move).stage.outcome? = none :=
          (here.stage_follow _).symm ▸ unended
        show (here.follow (here.engine.move move)).Underway
        rw [follow_unended going]
        exact ⟨before.task, before.runsTask⟩
      | close confirmed =>
        have active := (Bool.and_eq_true_iff.mp allowed).1
        show (here.beginClose confirmed).2.Underway
        rw [beginClose_active active]
        split_ifs
        · exact before
        · exact ⟨before.task, before.runsTask⟩
      | await =>
        show here.awaitTask.2.Underway
        rw [awaitTask_underway before]
        exact ⟨before.task, before.runsTask⟩
    | edit edit =>
      have aside := Aside.edit allowed edit
      exact (ih (aside.stage ▸ unended)).aside aside

theorem settle_vacant (underway : s.Underway) (closing : s.closing = true)
    (job : s.engine.job? = some plan) : (s.settle .finished).Vacant := by
  have settled : (s.settleState plan.file).runsTask = true ∧
      (s.settleState plan.file).closing = true := by
    unfold settleState
    dsimp only
    split_ifs <;> exact ⟨underway.runsTask, closing⟩
  simp only [settle, job, settled, if_true, finishTask]
  exact vacant_forget _

theorem Awaiting.move {move : Move} (awaiting : s.Awaiting plan lapsed)
    (busy : s.engine.stage.isBusy = true)
    (unraised : ∀ failure, move ≠ .acknowledge (some failure)) :
    (s.act (.engine move)).Awaiting plan lapsed ∨ (s.act (.engine move)).Halted plan lapsed := by
  have stopping := awaiting.engine.move move unraised
  show (s.follow (s.engine.move move)).Awaiting plan lapsed ∨
    (s.follow (s.engine.move move)).Halted plan lapsed
  cases came : (s.engine.move move).stage.outcome? with
  | none =>
    rw [follow_unended came]
    exact .inl ⟨⟨awaiting.task, awaiting.runsTask⟩, stopping, awaiting.closing, came⟩
  | some outcome =>
    have ended := Stage.outcome?_eq_some.mp came
    let next := { s with engine := s.engine.move move }
    have followed : s.follow (s.engine.move move) = next.settle outcome := by
      simp only [follow, busy, ended]
      rfl
    -- A run that was asked to stop is not completed, so that its end leaves the engine as it is.
    have uncompleted : next.engine.state.status ≠ .completed := stopping.uncompleted
    have engine : (next.settle outcome).engine = s.engine.move move := by
      rw [settle_engine_eq stopping.job (.inr uncompleted), Engine.settled, if_neg uncompleted]
    rw [followed]
    refine .inr ⟨engine ▸ stopping, by rw [engine, came]; rfl, fun finished => ?_⟩
    rw [engine, ended] at finished
    cases finished
    exact settle_vacant (s := next) ⟨awaiting.task, awaiting.runsTask⟩ awaiting.closing
      stopping.job

theorem Awaiting.aside {next : Session} (awaiting : s.Awaiting plan lapsed) (aside : s.Aside next) :
    next.Awaiting plan lapsed := by
  obtain ⟨store, happened, engine, _, kept⟩ := aside.engine
  refine ⟨awaiting.toUnderway.aside aside, ?_, aside.closing.trans awaiting.closing,
    aside.stage ▸ awaiting.going⟩
  rw [engine]
  exact awaiting.engine.aside kept

/-- Whatever happens to a session that waits for its run to end, it goes on waiting, or the run has
been stopped. -/
theorem Awaiting.doing {step : Doing} (awaiting : s.Awaiting plan lapsed)
    (allowed : s.allows step = true)
    (unraised : ∀ failure, step ≠ .act (.engine (.acknowledge (some failure)))) :
    (s.doing step).Awaiting plan lapsed ∨ (s.doing step).Halted plan lapsed := by
  cases step with
  | act act =>
    cases act with
    | engine move =>
      refine awaiting.move (Bool.and_eq_true_iff.mp (admits_of_allows allowed)).1 ?_
      rintro failure rfl
      exact unraised failure rfl
    | close confirmed =>
      have active := (Bool.and_eq_true_iff.mp allowed).1
      show (s.beginClose confirmed).2.Awaiting plan lapsed ∨ _
      rw [beginClose_active active]
      split_ifs
      · exact .inl awaiting
      · have asked := (awaiting.engine.move .save nofun).move (.operate .cancel) nofun
        exact .inl ⟨⟨awaiting.task, awaiting.runsTask⟩, asked, awaiting.closing,
          by simpa [Engine.move] using awaiting.going⟩
    | await =>
      show s.awaitTask.2.Awaiting plan lapsed ∨ _
      rw [awaitTask_underway awaiting.toUnderway]
      exact .inl ⟨⟨awaiting.task, awaiting.runsTask⟩, awaiting.engine, rfl, awaiting.going⟩
  | edit edit => exact .inl (awaiting.aside (.edit allowed edit))

/-- Nothing happens to a session any more whose run was stopped. -/
theorem Halted.rests (halted : s.Halted plan lapsed) (step : Doing) : s.allows step = false := by
  obtain ⟨outcome, came⟩ := Option.isSome_iff_exists.mp halted.ended
  have ended := Stage.outcome?_eq_some.mp came
  have inactive : s.isActive = false := by
    obtain ⟨_, going⟩ | ⟨cancelled, _⟩ := halted.engine.status
    · exact absurd (.inr ⟨outcome, ended⟩) going
    · simp [isActive, cancelled, Status.isActive]
  cases step with
  | act act => cases act <;> simp [allows, inactive, admits, ended, Stage.isBusy]
  | edit edit => exact inactive

theorem Awaiting.does {next : Session} {steps : List Doing} (awaiting : s.Awaiting plan lapsed)
    (did : s.Does steps next)
    (unraised : ∀ failure, .act (.engine (.acknowledge (some failure))) ∉ steps) :
    next.Awaiting plan lapsed ∨ next.Halted plan lapsed := by
  induction did with
  | none => exact .inl awaiting
  | @next steps here step _ allowed ih =>
    obtain waiting | halted := ih fun failure raised =>
      unraised failure (List.mem_append_left _ raised)
    · refine waiting.doing allowed ?_
      rintro failure rfl
      exact unraised failure (by simp)
    · rw [halted.rests step] at allowed
      cases allowed

end

structure Engaged (plan : Job) (s : Session) : Prop extends Underway s where
  active : s.isActive = true
  job : s.engine.job? = some plan
  busy : s.engine.stage.isBusy = true
  going : ¬ s.engine.IsOver

def stopping (s : Session) : Session := { s with engine := (s.engine.save.operate .cancel).2 }

def leaving (s : Session) : Session := { s.stopping with closing := true }

namespace Engaged
variable {plan : Job} {s closed : Session} {steps : List Doing} {confirmed : Option Bool}

theorem beginClose (engaged : s.Engaged plan) (undeclined : confirmed ≠ some false) :
    s.beginClose confirmed = (.stopping, s.stopping) := by
  rw [beginClose_active engaged.active, if_neg undeclined]
  rfl

theorem awaitTask (engaged : s.Engaged plan) : s.stopping.awaitTask = (none, s.leaving) :=
  awaitTask_underway (s := s.stopping) ⟨engaged.task, engaged.runsTask⟩

theorem awaiting (engaged : s.Engaged plan) : s.leaving.Awaiting plan s.engine.lapses := by
  have going := engaged.going
  refine ⟨⟨engaged.task, engaged.runsTask⟩, .of_active engaged.job engaged.active going, rfl, ?_⟩
  cases stage : s.engine.stage <;>
    simp_all [leaving, stopping, Engine.IsOver, Stage.outcome?]

theorem closes_declined (engaged : s.Engaged plan) {answer : Bool} :
    s.Closes (some false) steps answer closed ↔ steps = [] ∧ answer = false ∧ closed = s := by
  have begins : s.beginClose (some false) = (.declined, s) := by
    rw [beginClose_active engaged.active, if_pos rfl]
  constructor
  · intro closes
    cases closes with
    | declined began =>
      cases begins.symm.trans began
      exact ⟨rfl, rfl, rfl⟩
    | atOnce began | settled began => cases begins.symm.trans began
    | waited waits =>
      obtain ⟨_, _, began, _⟩ := waits
      cases begins.symm.trans began
  · rintro ⟨rfl, rfl, rfl⟩
    exact .declined begins

theorem waits_iff (engaged : s.Engaged plan) (undeclined : confirmed ≠ some false) :
    s.Waits confirmed steps closed ↔ s.leaving.Does steps closed := by
  constructor
  · rintro ⟨_, _, began, waits, did⟩
    cases (engaged.beginClose undeclined).symm.trans began
    cases engaged.awaitTask.symm.trans waits
    exact did
  · intro did
    exact ⟨_, _, engaged.beginClose undeclined, engaged.awaitTask, did⟩

/-- A session with an active run that is asked to close, and does not decline, closes by waiting until
the run has ended. -/
theorem closes_iff (engaged : s.Engaged plan) (undeclined : confirmed ≠ some false)
    {answer : Bool} :
    s.Closes confirmed steps answer closed ↔
      answer = true ∧ s.leaving.Does steps closed ∧ closed.engine.stage = .ended .finished := by
  have begins := engaged.beginClose undeclined
  constructor
  · intro closes
    cases closes with
    | atOnce began | declined began => cases begins.symm.trans began
    | settled began ended =>
      cases begins.symm.trans began
      cases engaged.awaitTask.symm.trans ended
    | waited waits ended => exact ⟨rfl, (engaged.waits_iff undeclined).mp waits, ended⟩
  · rintro ⟨rfl, did, ended⟩
    exact .waited ((engaged.waits_iff undeclined).mpr did) ended

/-- What happens to a session while it waits for its run follows on what has happened before. -/
theorem does (engaged : s.Engaged plan) (did : s.leaving.Does steps closed) :
    s.Does (.act (.close none) :: .act .await :: steps) closed := by
  have stage : s.stopping.engine.stage = s.engine.stage := by simp [stopping]
  have status := engaged.awaiting.engine.cancelling
    (by simpa [leaving, stopping, Engine.IsOver] using engaged.going)
  have active : s.stopping.isActive = true := by
    show s.leaving.engine.state.status.isActive = true
    rw [status]
    rfl
  have undeclined : (none : Option Bool) ≠ some false := by simp
  have began : s.doing (.act (.close none)) = s.stopping :=
    congrArg Prod.snd (engaged.beginClose undeclined)
  have waits : s.stopping.doing (.act .await) = s.leaving := congrArg Prod.snd engaged.awaitTask
  refine reaches_cons_iff.mpr ⟨by simp [allows, engaged.active, admits, engaged.busy], ?_⟩
  rw [began]
  refine reaches_cons_iff.mpr ⟨by simp [allows, active, admits, stage, engaged.busy], ?_⟩
  rw [waits]
  exact did

end Engaged

section
variable {s begun here : Session} {done : List Doing} {file : ContactFile}

/-- A task that was started is engaged in its run as long as that is active. -/
theorem Does.engaged (started : s.begin = (.ok (), begun)) (did : begun.Does done here)
    (opened : s.file? = some file) (active : here.isActive = true) :
    ∃ plan, plan.file.name = file.name ∧ here.Engaged plan := by
  obtain ⟨ran, _, rfl⟩ := begin_run started
  obtain ⟨plan, first, moves, new, e, named, course, parallel⟩ :=
    did.course (.inr started) opened (fun completed => by
      simp [isActive, completed, Status.isActive] at active)
  have placed := course.placed.parallel parallel
  have going : ¬ here.engine.IsOver := fun isOver => by
    have terminal := placed.terminal isOver
    cases status : here.engine.state.status <;>
      simp_all [isActive, Status.isActive, Status.isTerminal]
  have fits := placed.fits
  have busy : here.engine.stage.isBusy = true := by
    cases stage : here.engine.stage <;> simp_all [Point.Fits, Engine.IsOver, Stage.isBusy]
  have underway := did.underway ⟨rfl, rfl⟩ (Stage.outcome?_of_isBusy busy)
  exact ⟨plan, named, underway, active, placed.job, busy, going⟩

end

structure Quit (s here : Session) (file : ContactFile) (closed : Session) : Prop where
  vacant : closed.Vacant
  cancelled : closed.engine.state.status = .cancelled
  /-- each delivery of the run has ended, and no other begins any more -/
  settled : (s.engine.repliesSince closed.engine).map Prod.fst
    = (s.engine.callsSince closed.engine).map Prod.fst
  rests : ∀ moves e, closed.engine.Moves moves e → closed.engine.callsSince e = []
  /-- the progress of the last row is stored, unless meanwhile some was not saved or was removed -/
  stored : (∀ event ∈ here.engine.since closed.engine, event.isLapse = false) →
    ∃ c : Checkpoint, closed.engine.store.Holds s.workspace file.name c ∧
      c.row = closed.engine.state.row

section
variable {plan : Job} {s begun here next : Session} {done steps : List Doing} {file : ContactFile}

/-- Whatever waits for a run that was asked to stop has it end, or go on. -/
theorem Engaged.goes_on (engaged : here.Engaged plan) (begins : s.Begins begun)
    (did : begun.Does done here) (opened : s.file? = some file)
    (more : here.leaving.Does steps next)
    (unraised : ∀ failure, .act (.engine (.acknowledge (some failure))) ∉ steps) :
    (∃ outcome, next.engine.stage = .ended outcome) ∨ next.engine.Awaits := by
  have stopping : Engine.Stopping plan here.engine.lapses next.engine :=
    (engaged.awaiting.does more unraised).elim (·.engine) (·.engine)
  have uncompleted := stopping.uncompleted
  obtain ⟨_, _, _, _, e, _, course, parallel⟩ :=
    (did.append (engaged.does more)).course begins opened uncompleted
  obtain ⟨outcome, ended⟩ | ⟨paused, _⟩ | ⟨move, step, calm, waits⟩ := course.awaits
  · exact .inl ⟨outcome, parallel.stage.trans ended⟩
  · rw [← parallel.state] at paused
    obtain ⟨status, _⟩ | ⟨status, _⟩ := stopping.status <;> simp [status] at paused
  · exact .inr ⟨move, step, calm, parallel.admits move ▸ waits⟩

/-- A session that has waited for its run to stop has nothing left of it but its progress. -/
theorem Engaged.quit (engaged : here.Engaged plan) (named : plan.file.name = file.name)
    (begins : s.Begins begun) (did : begun.Does done here) (opened : s.file? = some file)
    (more : here.leaving.Does steps next) (ended : next.engine.stage = .ended .finished)
    (unraised : ∀ failure, .act (.engine (.acknowledge (some failure))) ∉ steps) :
    s.Quit here file next := by
  have isOver : next.engine.IsOver := .inr ⟨_, ended⟩
  obtain ⟨_, _, _, going⟩ | ⟨stopping, _, vacant⟩ := engaged.awaiting.does more unraised
  · simp [ended, Stage.outcome?] at going
  have cancelled : next.engine.state.status = .cancelled := by
    obtain ⟨_, going⟩ | ⟨cancelled, _⟩ := stopping.status
    · exact absurd isOver going
    · exact cancelled
  have all := engaged.does more
  obtain ⟨_, _, _, _, e, _, course, parallel⟩ :=
    (did.append all).course begins opened stopping.uncompleted
  refine ⟨vacant ended, cancelled, ?_, fun moves later moved => ?_, fun kept => ?_⟩
  -- The deliveries are those of the course that the engine would take without the edits.
  · obtain ⟨_, tally⟩ := course.tallied
    have isOver' : e.IsOver := .inr ⟨_, parallel.stage.symm.trans ended⟩
    rw [Engine.repliesSince, Engine.callsSince, parallel.filterMap_since Engine.reply_isMark,
      parallel.filterMap_since Engine.call_isMark]
    exact tally.replied course isOver'
  · have halting : next.engine.IsHalting := .inr ⟨.inl cancelled, isOver⟩
    exact (halting.moves moved).1.callsSince
  · obtain ⟨happened, grown⟩ := all.journal
    have lossless : happened.countP Event.isLapse = 0 := by
      rw [Engine.since_of_append grown.symm] at kept
      simpa [List.countP_eq_zero] using kept
    obtain ⟨savedAt, held⟩ := stopping.stored (Engine.lapses_eq happened grown.symm lossless)
    have workspace : next.engine.workspace = s.workspace :=
      (course.placed.parallel parallel).workspace
    rw [workspace, named] at held
    exact ⟨_, held, rfl⟩

end

/-- Closing a session is safe at any time while the run of its task is active. If it is declined it
leaves everything as it was. Else the session waits for its run, which goes on to its end, whatever
happens to the session meanwhile; once it has closed, the run was cancelled, no delivery of it is
under way or will be, and its progress is stored with the row where it has stopped. -/
theorem close_stops_run {s begun here : Session} {done : List Doing} {file : ContactFile}
    (opened : s.file? = some file) (started : s.begin = (.ok (), begun))
    (did : begun.Does done here) (active : here.isActive = true) :
    (∀ steps answer closed, here.Closes (some false) steps answer closed ↔
        steps = [] ∧ answer = false ∧ closed = here) ∧
      ∀ confirmed, confirmed ≠ some false →
        (∃ waiting, here.Waits confirmed [] waiting) ∧
          (∀ steps waiting, here.Waits confirmed steps waiting →
            (∀ failure, .act (.engine (.acknowledge (some failure))) ∉ steps) →
            (∃ outcome, waiting.engine.stage = .ended outcome) ∨ waiting.engine.Awaits) ∧
          ∀ steps answer closed, here.Closes confirmed steps answer closed →
            (∀ failure, .act (.engine (.acknowledge (some failure))) ∉ steps) →
            answer = true ∧ s.Quit here file closed := by
  obtain ⟨plan, named, engaged⟩ := did.engaged started opened active
  have begins : s.Begins begun := .inr started
  refine ⟨fun steps answer closed => engaged.closes_declined, fun confirmed undeclined =>
    ⟨⟨_, (engaged.waits_iff undeclined).mpr .none⟩, ?_, ?_⟩⟩
  · intro steps waiting waits unraised
    exact engaged.goes_on begins did opened ((engaged.waits_iff undeclined).mp waits) unraised
  · intro steps answer closed closes unraised
    obtain ⟨answered, more, ended⟩ := (engaged.closes_iff undeclined).mp closes
    exact ⟨answered, engaged.quit named begins did opened more ended unraised⟩

private theorem sample_begins :
    sample.begin = (.ok (), { sample.run.2 with task := .underway, runsTask := true }) := by
  obtain ⟨ran, started⟩ := sample_ready.run rfl sampleJob_valid
  have task : sample.task = .none := rfl
  simp [begin, startTask, task, started]

def samplePaused : List Doing :=
  [.act (.engine (.answer .accepted)), .act (.engine (.acknowledge none)),
    .act (.engine (.operate .pause))]

def sampleLeft : List Doing :=
  [.edit (.setLists ["offers"]), .act (.engine (.answer .accepted)),
    .act (.engine (.acknowledge none)), .act (.engine (.acknowledge none)),
    .act (.engine .proceed), .act (.engine (.acknowledge none))]

/-- The sample closes though it is paused, with its progress behind its last row. -/
theorem close_stops_run_sample :
    ∃ begun here closed, sample.begin = (.ok (), begun) ∧ begun.Does samplePaused here ∧
      here.engine.state.status = .paused ∧ here.Closes none sampleLeft true closed ∧
      sample.Quit here sampleJob.file closed ∧
      ∃ c : Checkpoint, closed.engine.store.Holds sample.workspace "people.csv" c ∧ c.row = 2 := by
  let begun := { sample.run.2 with task := .underway, runsTask := true }
  have begins : sample.begin = (.ok (), begun) := sample_begins
  have paused : (stateAfter? allows doing begun samplePaused).map
      (fun here => (here.isActive, here.engine.state.status)) = some (true, .paused) := by
    decide +kernel
  have left : (stateAfter? allows doing begun samplePaused).bind (fun here =>
      (stateAfter? allows doing here.leaving sampleLeft).map fun closed =>
        (closed.engine.stage.outcome?, closed.engine.state.row,
          (here.engine.since closed.engine).all fun event => !event.isLapse))
      = some (some .finished, 2, true) := by
    decide +kernel
  obtain ⟨here, did, shown⟩ := Option.map_eq_some_iff.mp paused
  obtain ⟨active, status⟩ := Prod.mk.inj shown
  rw [did, Option.bind_some] at left
  obtain ⟨closed, more, shown⟩ := Option.map_eq_some_iff.mp left
  simp only [Prod.mk.injEq, List.all_eq_true, Bool.not_eq_true'] at shown
  obtain ⟨ended, row, lossless⟩ := shown
  have did : begun.Does samplePaused here := reaches_iff.mpr did
  obtain ⟨plan, _, engaged⟩ := did.engaged begins sample_ready.file active
  have undeclined : (none : Option Bool) ≠ some false := by simp
  have closes : here.Closes none sampleLeft true closed :=
    (engaged.closes_iff undeclined).mpr ⟨rfl, reaches_iff.mpr more, Stage.outcome?_eq_some.mp ended⟩
  obtain ⟨_, _, stops⟩ := (close_stops_run sample_ready.file begins did active).2 none undeclined
  obtain ⟨_, quit⟩ := stops sampleLeft true closed closes (by simp [sampleLeft])
  obtain ⟨c, held, at_row⟩ := quit.stored lossless
  exact ⟨begun, here, closed, begins, did, status, closes, quit, c, held, at_row.trans row⟩

def sampleBlocked : List Doing :=
  [.act (.engine (.operate .pause)), .act (.engine (.answer .accepted)),
    .act (.engine (.acknowledge none))]

def sampleDiscarded : List Doing :=
  [.edit .discard, .act (.engine .proceed), .act (.engine (.acknowledge none))]

/-- Closing says that the session is closed, though its progress was discarded in the meantime and
nothing is stored of it. -/
theorem discarded_while_closing :
    ∃ begun here closed, sample.begin = (.ok (), begun) ∧ begun.Does sampleBlocked here ∧
      here.isActive = true ∧ here.Closes none sampleDiscarded true closed ∧
      sample.engine.store.storage = .of (.memory []) ∧
      ∀ c, ¬ closed.engine.store.Holds sample.workspace "people.csv" c := by
  let begun := { sample.run.2 with task := .underway, runsTask := true }
  have begins : sample.begin = (.ok (), begun) := sample_begins
  have blocked : (stateAfter? allows doing begun sampleBlocked).map (·.isActive) = some true := by
    decide +kernel
  have left : (stateAfter? allows doing begun sampleBlocked).bind (fun here =>
      (stateAfter? allows doing here.leaving sampleDiscarded).map fun closed =>
        (closed.engine.stage.outcome?,
          (closed.engine.store.storage.medium.get (progressKey sample.workspace "people.csv")).toOption))
      = some (some .finished, some none) := by
    decide +kernel
  obtain ⟨here, did, active⟩ := Option.map_eq_some_iff.mp blocked
  rw [did, Option.bind_some] at left
  obtain ⟨closed, more, shown⟩ := Option.map_eq_some_iff.mp left
  obtain ⟨ended, unstored⟩ := Prod.mk.inj shown
  have did : begun.Does sampleBlocked here := reaches_iff.mpr did
  obtain ⟨plan, _, engaged⟩ := did.engaged begins sample_ready.file active
  have closes : here.Closes none sampleDiscarded true closed :=
    (engaged.closes_iff (by simp)).mpr ⟨rfl, reaches_iff.mpr more, Stage.outcome?_eq_some.mp ended⟩
  refine ⟨begun, here, closed, begins, did, active, closes, rfl, ?_⟩
  rintro c ⟨text, _, held⟩
  simp [held, Except.toOption] at unstored

end Intake.Session
