import Intake.Delivery.Trial
import Intake.Proofs.CommandLine.Attempts
import Intake.Proofs.Run.Ending

/-! How an import from the command line ends. A run that was begun is driven to its end, since nobody
pauses it, and its status decides on the exit code. What escapes instead has one of five causes, and
each of them comes at a stage of its own. -/
namespace Intake

namespace Session

theorem endsWithin_follow (s : Session) {e : Engine} {steps : Int} (ends : e.EndsWithin steps) :
    (s.follow e).engine.EndsWithin steps := by
  obtain same | settled := s.follow_engine e
  · rwa [same]
  · obtain ⟨onward, bound⟩ := ends
    rw [← settled.state, ← settled.stage] at onward bound
    exact ⟨onward, bound⟩

end Session

namespace CommandLine
variable {σ : Type} {deliver : Handler σ} {i : Import}

def Interrupts (deliver : Handler σ) : Prop :=
  ∃ delivery s, (deliver delivery s).1.reply = .interrupted

structure CutOff (deliver : Handler σ) (e : Engine) : Prop where
  stage : e.stage = .ended .interrupted
  status : e.state.status = .cancelled
  cause : Interrupts deliver

/-! Driving. -/

theorem handled_call {session : Session} {steps : Int} {row stop : Nat} {contact : Contact}
    (ends : session.engine.EndsWithin steps) (called : session.engine.stage = .call row stop contact)
    (handling : Handling) :
    (handled handling session).engine.EndsWithin (steps - 1) ∨
      handling.reply = .interrupted ∧
        (handled handling session).engine.stage = .ended .interrupted ∧
        (handled handling session).engine.state.status = .cancelled := by
  -- Whether the run is asked to stop meanwhile makes no difference to the steps it takes.
  obtain ⟨asked, handled, ends, called⟩ : ∃ asked : Session,
      handled handling session = asked.follow (asked.engine.answer handling.reply) ∧
        asked.engine.EndsWithin steps ∧ asked.engine.stage = .call row stop contact := by
    unfold CommandLine.handled
    refine ⟨_, rfl, ?_, ?_⟩
    · split_ifs
      · exact Engine.endsWithin_cancel ends
      · exact ends
    · split_ifs
      · exact (session.engine.operate_fields .cancel).2.2.2.2.1.trans called
      · exact called
  rw [handled]
  by_cases through : handling.reply = .interrupted
  · right
    have cut : (asked.engine.answer handling.reply).stage = .ended .interrupted ∧
        (asked.engine.answer handling.reply).state.status = .cancelled := by
      simp [through, Engine.answer, called]
    obtain same | settled := asked.follow_engine (asked.engine.answer handling.reply)
    · rw [same]
      exact ⟨through, cut⟩
    · rw [settled.stage, settled.state]
      exact ⟨through, cut⟩
  · left
    exact asked.endsWithin_follow (Engine.endsWithin_answer ends called through)

theorem step_endsWithin {session : Session} {steps : Int} (ends : session.engine.EndsWithin steps)
    (busy : session.engine.stage.isBusy = true) (s : σ) :
    (step deliver session s).1.engine.EndsWithin (steps - 1) ∨
      CutOff deliver (step deliver session s).1.engine := by
  cases stage : session.engine.stage with
  | call row stop contact =>
    simp only [step, stage]
    obtain onward | ⟨cut, ended, cancelled⟩ := handled_call ends stage
      (deliver (session.engine.deliveryOf contact) s).1
    · exact .inl onward
    · exact .inr ⟨ended, cancelled, _, _, cut⟩
  | rowNotice row stop | batchNotice | finalNotice =>
    simp only [step, stage]
    refine .inl (session.endsWithin_follow (Engine.endsWithin_acknowledge ends ?_))
    simp [Engine.admits, stage]
  | turn =>
    simp only [step, stage]
    exact .inl (session.endsWithin_follow (Engine.endsWithin_proceed ends stage))
  | release row stop =>
    have onward := ends.onward
    simp only [stage, Stage.IsOnward] at onward
  | idle | ended outcome => simp [stage, Stage.isBusy] at busy

theorem drive_rested (rested : i.session.engine.stage.isBusy = false) (fuel : Nat) (s : σ) :
    drive deliver fuel i s = (i, s) := by
  cases fuel <;> simp [drive, rested]

/-- A run that ends within a number of steps is driven to its end in as many. -/
theorem drive_ends {fuel : Nat} (ends : i.session.engine.EndsWithin fuel) (s : σ) :
    let driven := (drive deliver fuel i s).1.session.engine
    driven.Finished ∨ CutOff deliver driven := by
  -- Each step of the drive takes one of those that are left; where none is left, the run is over.
  induction fuel generalizing i s with
  | zero =>
    have rested : i.session.engine.stage.isBusy = false := by
      by_contra busy
      have left := ends.pos (by simpa using busy)
      omega
    rw [drive_rested rested]
    exact .inl (ends.rested rested)
  | succ fuel ih =>
    by_cases busy : i.session.engine.stage.isBusy = true
    · let next : Import := { i with session := (step deliver i.session s).1 }.listen
      have driven : drive deliver (fuel + 1) i s
          = drive deliver fuel next (step deliver i.session s).2 := by
        simp only [drive, busy, if_true]
        rfl
      rw [driven]
      obtain onward | cut := step_endsWithin ends busy s
      · have left := onward.mono (show ((fuel + 1 : Nat) : Int) - 1 ≤ fuel by omega)
        exact ih ⟨left.onward, left.bound⟩ _
      · have rested : next.session.engine.stage.isBusy = false := by
          show (step deliver i.session s).1.engine.stage.isBusy = false
          rw [cut.stage]
          rfl
        rw [drive_rested rested]
        exact .inr ⟨cut.stage, cut.status, cut.cause⟩
    · have rested : i.session.engine.stage.isBusy = false := by simpa using busy
      rw [drive_rested rested]
      exact .inl (ends.rested rested)

/-! Concluding. -/

def ExitCode.ofStatus : Status → ExitCode
  | .completed => .completed
  | _ => .notCompleted

structure SameRun (i j : Import) : Prop where
  stage : j.session.engine.stage = i.session.engine.stage
  state : j.session.engine.state = i.session.engine.state

theorem SameRun.refl (i : Import) : SameRun i i := ⟨rfl, rfl⟩

theorem SameRun.trans {j k : Import} (first : SameRun i j) (second : SameRun j k) : SameRun i k :=
  ⟨second.stage.trans first.stage, second.state.trans first.state⟩

theorem SameRun.finished {j : Import} (same : SameRun i j) (finished : i.session.engine.Finished) :
    j.session.engine.Finished :=
  ⟨same.stage.trans finished.stage, same.state ▸ finished.terminal⟩

/-- Rejected rows were to be reported, and their report could not be written: an import is left as it
was then, except for what was written of the report. -/
inductive Unreported (place : Place) (arguments : Arguments) (final : Import) : ReportError → Prop
  | report {path : Text} {before : Import} {tree : FileTree} {error : ReportError}
      (wanted : arguments.errorsOut = some path) (named : path ≠ [])
      (rejected : final.session.engine.state.errors ≠ [])
      (failed : Report.write before.tree place.home (.ofText path) Report.defaultTitle []
        final.session.engine.state.errors = (.error error, tree))
      (left : final = before.withTree tree) : Unreported place arguments final error

def HaltedByReport (place : Place) (arguments : Arguments) (i : Import) (halt : Halt)
    (j : Import) : Prop :=
  SameRun i j ∧ ∃ error, halt = .crash (.report error) ∧ Unreported place arguments j error

theorem meets_report (place : Place) (arguments : Arguments) :
    Meets (report place arguments i.session.engine.state.errors) i (fun _ => SameRun i)
      (HaltedByReport place arguments i) := by
  unfold report
  dsimp only
  split_ifs with wanted
  · refine .bind (.get (.bind (.modify ?_)))
    split
    · rename_i error failed
      refine .throw ⟨⟨rfl, rfl⟩, error, rfl, ?_⟩
      cases asked : arguments.errorsOut with
      | none => simp [asked] at wanted
      | some path =>
        simp only [asked, Option.getD_some, Bool.and_eq_true, Bool.not_eq_true',
          List.isEmpty_eq_false_iff] at wanted failed
        exact .report asked wanted.1 wanted.2 (Prod.ext failed rfl) rfl
    · exact .modify ⟨rfl, rfl⟩
  · exact .pure (.refl i)

theorem meets_conclude (place : Place) (arguments : Arguments)
    (finished : i.session.engine.Finished) :
    Meets (conclude place arguments) i
      (fun code j => SameRun i j ∧ code = .ofStatus i.session.engine.state.status)
      (HaltedByReport place arguments i) := by
  obtain ⟨stage, terminal⟩ := finished
  refine .bind (.get ?_)
  simp only [stage]
  have told (entry : ErrorEntry) (j : Import) (same : SameRun i j) :
      Meets (modify (·.say (ofEntry entry))) j (fun _ => SameRun i) fun _ _ => False :=
    .modify (same.trans ⟨rfl, rfl⟩)
  refine .bind ((Meets.forM told _ (.refl i)).mono ?_ fun _ _ => False.elim)
  intro _ j same
  rw [← same.state]
  refine .bind ((meets_report place arguments).mono ?_ fun halt k => ?_)
  · intro _ k next
    have all := same.trans next
    cases status : j.session.engine.state.status with
    | completed => exact .pure ⟨all, rfl⟩
    | failed => exact .bind (.modify (.pure ⟨all.trans ⟨rfl, rfl⟩, rfl⟩))
    | cancelled => exact .bind (.modify (.pure ⟨all.trans ⟨rfl, rfl⟩, rfl⟩))
    | _ => simp [← same.state, status, Status.isTerminal] at terminal
  · exact fun failed => ⟨same.trans failed.1, failed.2⟩

theorem meets_conclude_interrupted (place : Place) (arguments : Arguments)
    (stage : i.session.engine.stage = .ended .interrupted) :
    Meets (conclude place arguments) i (fun _ _ => False) fun halt j =>
      halt = .crash .interrupted ∧ j = i := by
  refine .bind (.get ?_)
  simp only [stage]
  exact .bind (.throw ⟨rfl, rfl⟩)

/-! The whole import. -/

namespace Course

def Ended (course : Course σ) (status : Status) : Prop :=
  course.final.session.engine.stage = .ended .finished ∧
    course.final.session.engine.state.status = status

structure NotStarted (course : Course σ) (uncalled : σ) : Prop where
  unbegun : course.final.session.Unbegun
  courier : course.courier = uncalled

theorem NotStarted.not_ended {course : Course σ} {uncalled : σ}
    (unstarted : course.NotStarted uncalled) (status : Status) : ¬ course.Ended status := by
  rintro ⟨stage, _⟩
  rw [unstarted.unbegun.stage] at stage
  cases stage

inductive Faithful (course : Course σ) (uncalled : σ) : ExitCode → Prop
  | completed (ended : course.Ended .completed) : Faithful course uncalled .completed
  | cancelled (ended : course.Ended .cancelled) : Faithful course uncalled .notCompleted
  | failed (ended : course.Ended .failed) : Faithful course uncalled .notCompleted
  | notStarted (unstarted : course.NotStarted uncalled) : Faithful course uncalled .notStarted

inductive Escapes (course : Course σ) (place : Place) (arguments : Arguments) (deliver : Handler σ)
    (i : Import) (uncalled : σ) : Crash → Prop
  | file {error : LoadError}
      (failed : ContactFile.load i.tree (.ofText arguments.input) {} = .error error)
      (unforeseen : error.isForeseen = false) (unstarted : course.NotStarted uncalled) :
      Escapes course place arguments deliver i uncalled (.session (.load error))
  | progress {file : ContactFile} {failure : LoadFailure}
      (loaded : ContactFile.load i.tree (.ofText arguments.input) {} = .ok file)
      (failed : (i.session.engine.store.load i.session.workspace file.name).1 = .error failure)
      (unstarted : course.NotStarted uncalled) :
      Escapes course place arguments deliver i uncalled (.session (.progress failure))
  | interruption (cut : CutOff deliver course.final.session.engine) :
      Escapes course place arguments deliver i uncalled .interrupted
  | report {error : ReportError} (finished : course.final.session.engine.Finished)
      (unreported : Unreported place arguments course.final error) :
      Escapes course place arguments deliver i uncalled (.report error)

inductive Undismissed (course : Course σ) (carrier : Carrier σ) : Crash → Prop
  | failed {failure : Failure} {left : σ}
      (failed : carrier.dismiss left = (.rejected failure, course.courier)) :
      Undismissed course carrier (.dismissal failure)
  | cut {left : σ} (cut : carrier.dismiss left = (.interrupted, course.courier)) :
      Undismissed course carrier .interrupted

inductive Comes (course : Course σ) (place : Place) (arguments : Arguments) (deliver : Handler σ)
    (i : Import) (uncalled : σ) : Prop
  | exit {code : ExitCode} (exit : course.exit = .ok code) (faithful : course.Faithful uncalled code)
  | crash {crash : Crash} (exit : course.exit = .error crash)
      (escapes : course.Escapes place arguments deliver i uncalled crash)

end Course

theorem Course.faithful_of_finished {course : Course σ}
    (finished : course.final.session.engine.Finished) (s : σ) :
    course.Faithful s (.ofStatus course.final.session.engine.state.status) := by
  obtain ⟨stage, terminal⟩ := finished
  cases status : course.final.session.engine.state.status with
  | completed => exact .completed ⟨stage, status⟩
  | cancelled => exact .cancelled ⟨stage, status⟩
  | failed => exact .failed ⟨stage, status⟩
  | _ => simp [status, Status.isTerminal] at terminal

/-- Once its run is over an import is concluded by the status of that, unless its report fails. -/
theorem conclude_comes {j : Import} (place : Place) (arguments : Arguments) (asked : Option Text)
    (ended : j.session.engine.Finished ∨ CutOff deliver j.session.engine) (s courier : σ) :
    let (exit, final) := exitOf ((conclude place arguments).run.run j)
    Course.Comes ⟨exit, asked, final, courier⟩ place arguments deliver i s := by
  obtain finished | cut := ended
  · have concluded := meets_conclude place arguments finished
    unfold Meets at concluded
    split at concluded <;> rename_i ran <;> simp only [ran, exitOf]
    · obtain ⟨same, rfl⟩ := concluded
      rw [← same.state]
      exact .exit rfl (Course.faithful_of_finished (same.finished finished) s)
    · obtain ⟨same, error, rfl, unreported⟩ := concluded
      exact .crash rfl (.report (same.finished finished) unreported)
  · have concluded := meets_conclude_interrupted place arguments cut.stage
    unfold Meets at concluded
    split at concluded <;> rename_i ran <;> simp only [ran, exitOf]
    · exact concluded.elim
    · obtain ⟨rfl, rfl⟩ := concluded
      exact .crash rfl (.interruption cut)

theorem finish_comes {j : Import} (place : Place) (arguments : Arguments) (asked : Option Text)
    (begun : Begun j) (s t : σ) :
    let ((exit, final), courier) := finish place arguments deliver j t
    Course.Comes ⟨exit, asked, final, courier⟩ place arguments deliver i s := by
  obtain ⟨file, opened, ends⟩ := begun
  have enough := ends.mono (show _ ≤ ((stepsFor file.totalRows : Nat) : Int) by
    simp only [stepsFor]
    omega)
  have driven := @drive_ends _ deliver _ _ enough t
  simp only [finish, opened, Option.map_some, Option.getD_some]
  exact conclude_comes place arguments asked driven s _

theorem conduct_comes (place : Place) (arguments : Arguments) (answer : Option Text)
    (unbegun : i.session.Unbegun) (s : σ) :
    (conduct place arguments answer deliver i s).Comes place arguments deliver i s := by
  -- Opening and preparing either halt the import before its run or lead to the run that is driven.
  have opening := meets_openInput arguments unbegun
  unfold conduct
  unfold Meets at opening
  split at opening <;> rename_i opened <;> rw [opened]
  · rename_i saved j
    have preparing := meets_prepare arguments saved answer opening
    unfold Meets at preparing
    split at preparing <;> rename_i prepared <;> simp only [prepared]
    · exact finish_comes place arguments _ preparing s s
    · obtain ⟨left, record, rfl⟩ := preparing
      exact .exit rfl (.notStarted ⟨⟨left.stage, left.status⟩, rfl⟩)
  · obtain ⟨left, bars⟩ := opening
    cases bars with
    | refused record => exact .exit rfl (.notStarted ⟨⟨left.stage, left.status⟩, rfl⟩)
    | file failed unforeseen => exact .crash rfl (.file failed unforeseen ⟨left, rfl⟩)
    | progress loaded failed => exact .crash rfl (.progress loaded failed ⟨left, rfl⟩)

/-! The dismissal. -/

namespace Course
variable {course : Course σ} {carrier : Carrier σ} {place : Place} {arguments : Arguments} {s : σ}

theorem final_dismiss (course : Course σ) (carrier : Carrier σ) :
    (course.dismiss carrier).final = course.final := by
  unfold dismiss
  split <;> rfl

theorem courier_dismiss (course : Course σ) (carrier : Carrier σ) :
    (course.dismiss carrier).courier = (carrier.dismiss course.courier).2 := by
  unfold dismiss
  split <;> rename_i dismissed <;> rw [dismissed]

theorem Ended.dismiss {status : Status} (ended : course.Ended status) :
    (course.dismiss carrier).Ended status := by
  rwa [Ended, final_dismiss]

theorem NotStarted.dismiss (unstarted : course.NotStarted s) :
    (course.dismiss carrier).NotStarted (carrier.dismiss s).2 := by
  refine ⟨?_, ?_⟩
  · rw [final_dismiss]
    exact unstarted.unbegun
  · rw [courier_dismiss, unstarted.courier]

theorem Faithful.dismiss {code : ExitCode} (faithful : course.Faithful s code) :
    (course.dismiss carrier).Faithful (carrier.dismiss s).2 code := by
  cases faithful with
  | completed ended => exact .completed ended.dismiss
  | cancelled ended => exact .cancelled ended.dismiss
  | failed ended => exact .failed ended.dismiss
  | notStarted unstarted => exact .notStarted unstarted.dismiss

theorem Escapes.dismiss {crash : Crash}
    (escapes : course.Escapes place arguments deliver i s crash) :
    (course.dismiss carrier).Escapes place arguments deliver i (carrier.dismiss s).2 crash := by
  cases escapes with
  | file failed unforeseen unstarted => exact .file failed unforeseen unstarted.dismiss
  | progress loaded failed unstarted => exact .progress loaded failed unstarted.dismiss
  | interruption cut => exact .interruption (by rwa [final_dismiss])
  | report finished unreported =>
    exact .report (by rwa [final_dismiss]) (by rwa [final_dismiss])

/-- An import comes to what it had come to before the dismissal, unless this fails. -/
theorem Comes.dismiss (comes : course.Comes place arguments deliver i s) :
    (course.dismiss carrier).Comes place arguments deliver i (carrier.dismiss s).2 ∨
      ∃ crash, (course.dismiss carrier).exit = .error crash ∧
        (course.dismiss carrier).Undismissed carrier crash := by
  cases dismissed : carrier.dismiss course.courier with
  | mk reply courier =>
    have left : (course.dismiss carrier).courier = courier := by
      rw [courier_dismiss, dismissed]
    cases reply with
    | accepted =>
      have same : (course.dismiss carrier).exit = course.exit := by
        simp only [Course.dismiss, dismissed]
      left
      cases comes with
      | exit exit faithful => exact .exit (same.trans exit) faithful.dismiss
      | crash exit escapes => exact .crash (same.trans exit) escapes.dismiss
    | rejected failure =>
      exact .inr ⟨_, by simp only [Course.dismiss, dismissed], .failed (left ▸ dismissed)⟩
    | interrupted =>
      exact .inr ⟨_, by simp only [Course.dismiss, dismissed], .cut (left ▸ dismissed)⟩

/-- The number of a faithful exit code says where the import has ended. -/
theorem Faithful.number {code : ExitCode} (faithful : course.Faithful s code) :
    (code.number = 0 ↔ course.Ended .completed) ∧
      (code.number = 1 ↔ course.Ended .cancelled ∨ course.Ended .failed) ∧
      (code.number = 2 ↔ course.NotStarted s) := by
  have other {a b : Status} (ended : course.Ended a) (differs : a ≠ b) : ¬ course.Ended b :=
    fun ended' => differs (ended.2.symm.trans ended'.2)
  have begun {a : Status} (ended : course.Ended a) : ¬ course.NotStarted s :=
    fun unstarted => unstarted.not_ended a ended
  cases faithful with
  | completed ended | cancelled ended | failed ended =>
    simp [ExitCode.number, ended, other ended, begun ended]
  | notStarted unstarted => simp [ExitCode.number, unstarted, unstarted.not_ended]

end Course

/-- The exit code of an import is 0 exactly if its run has completed, 1 exactly if its run was
cancelled or has failed, and 2 exactly if no run was begun, and then nothing was delivered. What
escapes instead is a file that cannot be loaded for another reason than that it is missing, empty or
of an unsupported kind; progress whose loading fails; an interruption of a delivery; once the run
has ended with rejected rows, a failure to report these; or, whatever the import had come to, a
failure to dismiss whoever delivered. -/
theorem runImport_exit (place : Place) (arguments : Arguments) (answer : Option Text)
    (carrier : Carrier σ) {batchSize : Nat} (positive : 0 < batchSize) (store : ProgressStore)
    (s : σ) :
    let i := Import.of
      (Session.of (Engine.of arguments.workspace batchSize positive store) arguments.lists
        place.calendar)
    let course := runImport place arguments answer carrier i s
    let uncalled := (carrier.dismiss s).2
    (∀ code, course.exit = .ok code →
        (code.number = 0 ↔ course.Ended .completed) ∧
        (code.number = 1 ↔ course.Ended .cancelled ∨ course.Ended .failed) ∧
        (code.number = 2 ↔ course.NotStarted uncalled)) ∧
      ∀ crash, course.exit = .error crash →
        course.Escapes place arguments carrier.deliver i uncalled crash ∨
          course.Undismissed carrier crash := by
  intro i course uncalled
  have unbegun : i.session.Unbegun := ⟨rfl, rfl⟩
  have conducted := @conduct_comes _ carrier.deliver _ place arguments answer unbegun s
  have comes := @Course.Comes.dismiss _ _ _ _ carrier _ _ _ conducted
  obtain (⟨exit, faithful⟩ | ⟨exit, escapes⟩) | ⟨crash, exit, undismissed⟩ := comes
  · refine ⟨fun code same => ?_, fun crash same => ?_⟩
    · obtain rfl := Except.ok.inj (exit.symm.trans same)
      exact faithful.number
    · cases exit.symm.trans same
  · refine ⟨fun code same => ?_, fun crash same => ?_⟩
    · cases exit.symm.trans same
    · obtain rfl := Except.error.inj (exit.symm.trans same)
      exact .inl escapes
  · refine ⟨fun code same => ?_, fun crash same => ?_⟩
    · cases exit.symm.trans same
    · obtain rfl := Except.error.inj (exit.symm.trans same)
      exact .inr undismissed

def sampleImport : Import :=
  let contacts : Node := .file (.bytes ((Text.encodeUtf8 "email\nann@x.io\nbob@x.io\n").getD []))
  let tree : FileTree := ⟨[([Text.ofString "contacts.csv"], contacts)]⟩
  .of (.of (Engine.of "w" Engine.defaultBatchSize Engine.defaultBatchSize_pos
    ⟨.of (.files (.ofText "progress") tree), ProgressStore.defaultFreshness, 0⟩) [] .own)

def samplePlace : Place := ⟨[], sampleImport.tree, .ofText ".", .ofText "/", 0, .own⟩

def sampleCourse (errorsOut : Text) : Course Trial.Ledger :=
  runImport samplePlace { input := "contacts.csv", workspace := "w", errorsOut := some errorsOut } none
    (Trial.carrier ⟨["ann@x.io"], none⟩) sampleImport .empty

theorem runImport_exit_sample :
    ∃ code, (sampleCourse "out/rejected.csv").exit = .ok code ∧ code.number = 0 ∧
      (sampleCourse "out/rejected.csv").Ended .completed ∧
      (sampleCourse "out/rejected.csv").courier.calls.length = 2 ∧
      (sampleCourse "out/rejected.csv").courier.dismissals = 1 := by
  have shown : ((sampleCourse "out/rejected.csv").exit.toOption.map (·.number),
      (sampleCourse "out/rejected.csv").courier.calls.length,
      (sampleCourse "out/rejected.csv").courier.dismissals) = (some 0, 2, 1) := by
    decide +kernel
  simp only [Prod.mk.injEq] at shown
  obtain ⟨exited, called, dismissed⟩ := shown
  obtain ⟨code, exit, number⟩ := Option.map_eq_some_iff.mp exited
  have exit : (sampleCourse "out/rejected.csv").exit = .ok code := by
    cases same : (sampleCourse "out/rejected.csv").exit <;> simp_all [Except.toOption]
  have faithful := (runImport_exit samplePlace
    { input := "contacts.csv", workspace := "w", errorsOut := some "out/rejected.csv" } none
    (Trial.carrier ⟨["ann@x.io"], none⟩) Engine.defaultBatchSize_pos
    sampleImport.session.engine.store .empty).1 code exit
  exact ⟨code, exit, number, faithful.1.mp number, called, dismissed⟩

def unsupported? : Except Crash ExitCode → Option Text
  | .error (.report (.unsupported suffix)) => some suffix
  | _ => none

theorem unsupported?_eq_some {exit : Except Crash ExitCode} {suffix : Text} :
    unsupported? exit = some suffix ↔ exit = .error (.report (.unsupported suffix)) := by
  unfold unsupported?
  split <;> simp_all

/-- A completed run has no exit code if the report of its rejected rows has a suffix of no format. -/
theorem completed_run_escapes :
    (sampleCourse "rejected.txt").Ended .completed ∧
      (sampleCourse "rejected.txt").exit = .error (.report (.unsupported ".txt")) := by
  have shown : ((sampleCourse "rejected.txt").final.session.engine.stage.outcome?,
      (sampleCourse "rejected.txt").final.session.engine.state.status,
      unsupported? (sampleCourse "rejected.txt").exit)
        = (some Outcome.finished, Status.completed, some (Text.ofString ".txt")) := by
    decide +kernel
  simp only [Prod.mk.injEq] at shown
  obtain ⟨stage, status, exit⟩ := shown
  exact ⟨⟨Stage.outcome?_eq_some.mp stage, status⟩, unsupported?_eq_some.mp exit⟩

end CommandLine
end Intake
