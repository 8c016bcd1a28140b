import Intake.Proofs.Run.Parallel
import Intake.Proofs.Run.Stopping
import Intake.Proofs.Session.Chain

/-! Edits of a session while its run is active. The run was given a mapping and lists of its own, and
no edit comes to its engine, except that discarding clears what its store holds. So the run makes the
deliveries and hands over the progress that it would without them. -/
namespace Intake.Session

inductive Edit
  | assign (key : Text) (header : Option Text)
  | setLists (lists : List Text)
  | discard
  | resume
  | useFile (file : ContactFile)

def edit (s : Session) : Edit → Session
  | .assign key header => (s.assign key header).2
  | .setLists lists => s.setLists lists
  | .discard => s.discardProgress.2
  | .resume => s.resumeProgress.2
  | .useFile file => (s.useFile file).2

inductive Doing
  | act (act : Act)
  | edit (edit : Edit)

def Doing.act? : Doing → Option Act
  | act happened => some happened
  | edit _ => none

def doing (s : Session) : Doing → Session
  | .act act => s.act act
  | .edit edit => s.edit edit

def allows (s : Session) : Doing → Bool
  | .act (.engine move) => s.admits (.engine move)
  | .act act => s.isActive && s.admits act
  | .edit _ => s.isActive

abbrev Does (s : Session) : List Doing → Session → Prop := Reaches allows doing s

theorem admits_of_allows {s : Session} {act : Act} (allowed : s.allows (.act act) = true) :
    s.admits act = true := by
  cases act with
  | engine move => exact allowed
  | close confirmed | await => exact (Bool.and_eq_true_iff.mp allowed).2

structure Aside (s next : Session) : Prop where
  task : next.task = s.task
  runsTask : next.runsTask = s.runsTask
  closing : next.closing = s.closing
  engine : ∃ store happened,
    next.engine = { s.engine with store, journal := happened ++ s.engine.journal } ∧
      Engine.marks happened = [] ∧
      (happened.countP Event.isLapse = 0 → store = s.engine.store)

namespace Aside
variable {s next : Session}

theorem of_engine (task : next.task = s.task) (runsTask : next.runsTask = s.runsTask)
    (closing : next.closing = s.closing) (engine : next.engine = s.engine) : s.Aside next :=
  ⟨task, runsTask, closing, s.engine.store, [], engine, rfl, fun _ => rfl⟩

theorem note (aside : s.Aside next) {event : Event} (other : event.isMark = false)
    (kept : event.isLapse = false) : s.Aside (next.note event) := by
  obtain ⟨task, runsTask, closing, store, happened, engine, unmarked, stored⟩ := aside
  refine ⟨task, runsTask, closing, store, event :: happened, ?_, ?_, ?_⟩
  · simp [Session.note, engine, Engine.note]
  · simp [other, unmarked]
  · simpa [List.countP_cons, kept] using stored

private theorem noteIf (aside : s.Aside next) (c : Prop) [Decidable c] {event : Event}
    (other : event.isMark = false) (kept : event.isLapse = false) :
    s.Aside (if c then next.note event else next) := by
  split_ifs
  · exact aside.note other kept
  · exact aside

private theorem noteUnless (aside : s.Aside next) (c : Prop) [Decidable c] {event : Event}
    (other : event.isMark = false) (kept : event.isLapse = false) :
    s.Aside (if c then next else next.note event) := by
  split_ifs
  · exact aside
  · exact aside.note other kept

theorem resumeProgress (s : Session) : s.Aside s.resumeProgress.2 := by
  unfold Session.resumeProgress
  split
  · exact .of_engine rfl rfl rfl rfl
  · exact .of_engine rfl rfl rfl rfl
  · rename_i file checkpoint _ _
    have placed (row : Int) : s.Aside
        { s with
          mapping := (checkpoint.mapping.restrict file.headers).1
          lists := checkpoint.lists
          resumeRow := row } :=
      .of_engine rfl rfl rfl rfl
    have taken {next : Session} (aside : s.Aside next) : s.Aside { next with pending? := none } :=
      ⟨aside.task, aside.runsTask, aside.closing, aside.engine⟩
    refine taken ((Aside.noteUnless ?_ _ rfl rfl).noteIf _ rfl rfl)
    split_ifs
    · exact placed _
    · exact (placed 0).note rfl rfl

theorem discardProgress (s : Session) : s.Aside s.discardProgress.2 := by
  unfold Session.discardProgress
  split
  · exact .of_engine rfl rfl rfl rfl
  · rename_i file _
    refine ⟨rfl, rfl, rfl, (s.engine.store.clear s.workspace file.name).2,
      [.suggested (Mapping.suggest file.headers),
        .stored (s.engine.store.clear s.workspace file.name).1], rfl, rfl, fun kept => ?_⟩
    have lapse := s.engine.store.isLapse_clear s.workspace file.name
    simp [List.countP_cons, lapse] at kept

theorem assign (s : Session) (key : Text) (header : Option Text) :
    s.Aside (s.assign key header).2 := by
  unfold Session.assign
  split
  · exact .of_engine rfl rfl rfl rfl
  · dsimp only
    split_ifs
    · exact .of_engine rfl rfl rfl rfl
    · split <;> exact .of_engine rfl rfl rfl rfl

/-- No edit of a session whose run is active comes to the run. -/
theorem edit (active : s.isActive = true) (edit : Edit) : s.Aside (s.edit edit) := by
  cases edit with
  | assign key header => exact .assign s key header
  | setLists lists => exact .of_engine rfl rfl rfl rfl
  | discard => exact .discardProgress s
  | resume => exact .resumeProgress s
  | useFile file =>
    have refused : s.useFile file = (.error .fileWhileActive, s) := by rw [useFile, if_pos active]
    exact .of_engine (by rw [Session.edit, refused]) (by rw [Session.edit, refused])
      (by rw [Session.edit, refused]) (by rw [Session.edit, refused])

end Aside

structure Shadows (past : List Event) (alone s : Session) : Prop where
  engine : Engine.Parallel past alone.engine s.engine
  task : s.task = alone.task
  runsTask : s.runsTask = alone.runsTask
  closing : s.closing = alone.closing

namespace Shadows
variable {past : List Event} {alone s next : Session}

theorem isActive (shadows : Shadows past alone s) : s.isActive = alone.isActive := by
  simp only [Session.isActive, shadows.engine.state]

theorem admits (shadows : Shadows past alone s) (act : Act) : s.admits act = alone.admits act := by
  cases act <;> simp only [Session.admits, shadows.engine.stage, shadows.engine.admits]

theorem aside (shadows : Shadows past alone s) (aside : s.Aside next) :
    Shadows past alone next := by
  obtain ⟨task, runsTask, closing, store, happened, engine, unmarked, _⟩ := aside
  refine ⟨?_, task.trans shadows.task, runsTask.trans shadows.runsTask,
    closing.trans shadows.closing⟩
  rw [engine]
  exact shadows.engine.aside store unmarked

theorem forget (shadows : Shadows past alone s) : Shadows past alone.forget s.forget :=
  ⟨shadows.engine, rfl, shadows.runsTask, rfl⟩

theorem finishTask (shadows : Shadows past alone s) (result : Except SessionError Outcome) :
    Shadows past (alone.finishTask result) (s.finishTask result) := by
  unfold Session.finishTask
  dsimp only
  rw [shadows.closing]
  split
  · split
    · exact ⟨shadows.engine, rfl, rfl, rfl⟩
    · exact ⟨shadows.engine, rfl, rfl, rfl⟩
  · exact ⟨shadows.engine, rfl, rfl, rfl⟩

theorem settleState (shadows : Shadows past alone s) (file : ContactFile) :
    Shadows past (alone.settleState file) (s.settleState file) := by
  unfold Session.settleState
  dsimp only
  rw [shadows.engine.state]
  split
  · have unmarked (announcement : Announcement) (event : StoreEvent) :
        Engine.marks [.published announcement, .stored event] = [] := rfl
    exact ⟨shadows.engine.asides _ _ (unmarked _ _) (unmarked _ _), shadows.task,
      shadows.runsTask, shadows.closing⟩
  · exact ⟨shadows.engine, shadows.task, shadows.runsTask, shadows.closing⟩

theorem settle (shadows : Shadows past alone s) (outcome : Outcome) :
    Shadows past (alone.settle outcome) (s.settle outcome) := by
  have ending {alone s : Session} (shadows : Shadows past alone s) :
      Shadows past (if alone.runsTask then alone.finishTask (.ok outcome) else alone)
        (if s.runsTask then s.finishTask (.ok outcome) else s) := by
    rw [shadows.runsTask]
    split
    · exact shadows.finishTask _
    · exact shadows
  unfold Session.settle
  have job : s.engine.job? = alone.engine.job? := shadows.engine.alike.job
  rw [job]
  cases outcome with
  | finished =>
    cases alone.engine.job? with
    | none => exact ending shadows
    | some job => exact ending (shadows.settleState job.file)
  | failed failure | interrupted => exact ending shadows

theorem follow (shadows : Shadows past alone s) {a b : Engine} (engine : Engine.Parallel past a b) :
    Shadows past (alone.follow a) (s.follow b) := by
  have next : Shadows past { alone with engine := a } { s with engine := b } :=
    ⟨engine, shadows.task, shadows.runsTask, shadows.closing⟩
  unfold Session.follow
  rw [shadows.engine.stage, engine.stage]
  dsimp only
  split
  · exact next.settle _
  · exact next

theorem beginClose (shadows : Shadows past alone s) (confirmed : Option Bool) :
    (s.beginClose confirmed).1 = (alone.beginClose confirmed).1 ∧
      Shadows past (alone.beginClose confirmed).2 (s.beginClose confirmed).2 := by
  unfold Session.beginClose
  rw [shadows.isActive]
  split_ifs
  · exact ⟨rfl, shadows⟩
  · have cancelled := (shadows.engine.move .save).move (.operate .cancel)
    exact ⟨rfl, cancelled, shadows.task, shadows.runsTask, shadows.closing⟩
  · exact ⟨rfl, shadows.forget⟩

theorem awaitTask (shadows : Shadows past alone s) :
    Shadows past alone.awaitTask.2 s.awaitTask.2 := by
  unfold Session.awaitTask
  rw [shadows.task]
  split
  · exact shadows.forget
  · exact ⟨shadows.engine, rfl, shadows.runsTask, rfl⟩
  · exact shadows.forget
  · exact shadows

theorem act (shadows : Shadows past alone s) (act : Act) :
    Shadows past (alone.act act) (s.act act) := by
  cases act with
  | engine move => exact shadows.follow (shadows.engine.move move)
  | close confirmed => exact (shadows.beginClose confirmed).2
  | await => exact shadows.awaitTask

end Shadows

/-- What happens to a session happens alone, too, without the edits. -/
theorem Does.alone {past : List Event} {begun here : Session} {done : List Doing}
    (did : begun.Does done here) (kept : past <:+ begun.engine.journal) :
    ∃ alone, begun.Acts (done.filterMap Doing.act?) alone ∧ Shadows past alone here := by
  induction did with
  | none => exact ⟨begun, .none, .refl kept, rfl, rfl, rfl⟩
  | @next done here step _ allowed ih =>
    obtain ⟨alone, acted, shadows⟩ := ih
    cases step with
    | act act =>
      refine ⟨alone.act act, ?_, shadows.act act⟩
      have admitted := shadows.admits act ▸ admits_of_allows allowed
      simpa [Doing.act?] using acted.next act admitted
    | edit edit =>
      have unmoved := shadows.aside (.edit allowed edit)
      exact ⟨alone, by simpa [List.filterMap_cons, Doing.act?] using acted, unmoved⟩

section
variable {s begun here next : Session} {done steps : List Doing} {file : ContactFile}

theorem Does.append (did : begun.Does done here) (more : here.Does steps next) :
    begun.Does (done ++ steps) next :=
  reaches_append_iff.mpr ⟨here, did, more⟩

/-- While its run is active a session adds to what has happened, and forgets nothing of it. -/
theorem Does.journal (did : begun.Does done here) :
    begun.engine.journal <:+ here.engine.journal := by
  obtain ⟨_, _, shadows⟩ := did.alone List.suffix_rfl
  obtain ⟨_, others, _, grown, _⟩ := shadows.engine.since
  exact ⟨others, grown.symm⟩

/-- The run of a session goes, up to the edits, along a course of its engine. -/
theorem Does.course (begins : s.Begins begun) (did : begun.Does done here)
    (opened : s.file? = some file) (uncompleted : here.engine.state.status ≠ .completed) :
    ∃ plan first moves new e, plan.file.name = file.name ∧
      Engine.Course s.engine plan first moves new .stage e ∧
      Engine.Parallel s.engine.journal e here.engine := by
  obtain ⟨file', opened', started⟩ := begins.start
  obtain rfl : file' = file := Option.some.inj (opened'.symm.trans opened)
  obtain ⟨kept, dropped, valid⟩ := Engine.valid_of_start started
  have grown := Engine.journal_start s.engine ⟨file', s.mapping, s.lists, s.calendar⟩ s.resumeRow
  rw [started] at grown
  obtain ⟨alone, acted, shadows⟩ := did.alone grown
  obtain ⟨moves, new, e, course, same | settled⟩ :=
    Runs.course ⟨begun, _, begins, acted⟩ opened valid
  · exact ⟨_, _, moves, new, e, rfl, course, same ▸ shadows.engine⟩
  · rw [shadows.engine.state, settled.state, settled.completed] at uncompleted
    exact absurd rfl uncompleted

end

/-- What a session is edited to while its run is active does not come to the run. With the edits and
without them, whether they are done or refused, the run makes the same deliveries, in the same order,
and hands over the same progress; it has the same state, and waits for the same. -/
theorem run_apart_from_edits {s begun here : Session} {done : List Doing} (begins : s.Begins begun)
    (did : begun.Does done here) :
    ∃ alone, begun.Acts (done.filterMap Doing.act?) alone ∧
      s.engine.callsSince here.engine = s.engine.callsSince alone.engine ∧
      s.engine.handedSince here.engine = s.engine.handedSince alone.engine ∧
      here.engine.state = alone.engine.state ∧ here.engine.stage = alone.engine.stage ∧
      ∀ act, here.admits act = alone.admits act := by
  obtain ⟨file, _, started⟩ := begins.start
  have kept := Engine.journal_start s.engine ⟨file, s.mapping, s.lists, s.calendar⟩ s.resumeRow
  rw [started] at kept
  obtain ⟨alone, acted, shadows⟩ := did.alone kept
  exact ⟨alone, acted, shadows.engine.filterMap_since Engine.call_isMark,
    shadows.engine.filterMap_since Engine.handed_isMark, shadows.engine.state,
    shadows.engine.stage, shadows.admits⟩

def sampleEdited : List Doing :=
  [.edit (.assign Attribute.emailKey none), .edit (.setLists ["offers"]), .edit .discard,
    .edit .resume, .edit (.useFile ⟨"other.csv", [], [], 0⟩)]

def sampleRest : List Move :=
  [.answer .accepted, .acknowledge none, .answer .accepted, .acknowledge none, .acknowledge none,
    .proceed, .acknowledge none]

/-- The sample is completed by the deliveries to its own lists, though it was edited in every way. -/
theorem run_apart_from_edits_sample :
    ∃ begun done here alone, sample.Begins begun ∧ begun.Does done here ∧
      begun.Acts (done.filterMap Doing.act?) alone ∧
      here.lists = (["offers"] : List Text) ∧ alone.lists = (["news"] : List Text) ∧
      here.engine.state.status = .completed ∧
      sample.engine.callsSince here.engine = sample.engine.callsSince alone.engine := by
  let done := sampleEdited ++ sampleRest.map (.act ∘ .engine)
  obtain ⟨begun, started⟩ := sample_ready.run rfl sampleJob_valid
  have ended : (stateAfter? allows doing sample.run.2 done).map
      (fun here => (here.lists, here.engine.state.status))
      = some ([("offers" : Text)], Status.completed) := by
    decide +kernel
  have unedited : (sample.run.2.after? (done.filterMap Doing.act?)).map (·.lists)
      = some [("news" : Text)] := by
    decide +kernel
  rw [started] at ended unedited
  obtain ⟨here, did, shown⟩ := Option.map_eq_some_iff.mp ended
  obtain ⟨lists, completed⟩ := Prod.mk.inj shown
  have begins : sample.Begins begun := .inl started
  obtain ⟨alone, acted, calls, _⟩ := run_apart_from_edits begins (reaches_iff.mpr did)
  rw [show begun.after? _ = some alone from reaches_iff.mp acted] at unedited
  exact ⟨begun, done, here, alone, begins, reaches_iff.mpr did, acted, lists,
    Option.some.inj unedited, completed, calls⟩

end Intake.Session
