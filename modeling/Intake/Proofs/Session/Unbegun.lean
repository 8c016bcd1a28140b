import Intake.Proofs.Run.Unpaused
import Intake.Proofs.Session.Runs

/-! Sessions before their first run. Whatever they are asked, they answer it or refuse it, and no run
has begun after that; only a file or its progress can fail to load in ways of their own. A run that
begins ends within a number of steps that its file bounds, if nobody pauses it. -/
namespace Intake

def SessionError.isRefusal : SessionError → Bool
  | load _ | progress _ | start .active => false
  | _ => true

def LoadError.isForeseen : LoadError → Bool
  | file _ .missing | unsupported _ | empty => true
  | _ => false

namespace Session
variable {s : Session}

structure Unbegun (s : Session) : Prop where
  stage : s.engine.stage = .idle
  status : s.engine.state.status = .idle

theorem Unbegun.isActive (unbegun : s.Unbegun) : s.isActive = false := by
  rw [Session.isActive, unbegun.status]
  rfl

theorem Unbegun.useFile (unbegun : s.Unbegun) (file : ContactFile) :
    (s.useFile file).2.Unbegun ∧ ∀ error, (s.useFile file).1 = .error error → ∃ failure,
      error = .progress failure ∧
        (s.engine.store.load s.workspace file.name).1 = .error failure := by
  let suggested := { s with file? := some file }.startOver file
  have loading : (suggested.loadProgress file.name).2.Unbegun := ⟨unbegun.stage, unbegun.status⟩
  have failing : (suggested.loadProgress file.name).1
      = (s.engine.store.load s.workspace file.name).1 := rfl
  have inactive : ¬ s.isActive = true := by simp [unbegun.isActive]
  rw [Session.useFile, if_neg inactive]
  cases loaded : suggested.loadProgress file.name with
  | mk answer next =>
    rw [loaded] at loading failing
    cases answer with
    | error failure =>
      refine ⟨loading, ?_⟩
      rintro _ ⟨⟩
      exact ⟨failure, rfl, failing.symm⟩
    | ok offered => cases offered <;> exact ⟨⟨loading.stage, loading.status⟩, nofun⟩

inductive Unopened (s : Session) (tree : FileTree) (path : Path) : SessionError → Prop
  | file {error : LoadError} (failed : ContactFile.load tree path {} = .error error) :
      Unopened s tree path (.load error)
  | progress {file : ContactFile} {failure : LoadFailure}
      (loaded : ContactFile.load tree path {} = .ok file)
      (failed : (s.engine.store.load s.workspace file.name).1 = .error failure) :
      Unopened s tree path (.progress failure)

theorem Unbegun.openFile (unbegun : s.Unbegun) (tree : FileTree) (path : Path) :
    (s.openFile tree path).2.Unbegun ∧
      ∀ error, (s.openFile tree path).1 = .error error → s.Unopened tree path error := by
  unfold Session.openFile useLoaded
  cases loaded : ContactFile.load tree path {} with
  | error error =>
    refine ⟨unbegun, ?_⟩
    rintro _ ⟨⟩
    exact .file loaded
  | ok file =>
    obtain ⟨used, failing⟩ := unbegun.useFile file
    refine ⟨used, fun error failed => ?_⟩
    obtain ⟨failure, rfl, unsettled⟩ := failing error failed
    exact .progress loaded unsettled

structure Remains {α : Type} (answered : Except SessionError α × Session) : Prop where
  unbegun : answered.2.Unbegun
  refusal : ∀ error, answered.1 = .error error → error.isRefusal = true

theorem Unbegun.answers {α : Type} (unbegun : s.Unbegun) (answer : α) :
    Remains (.ok answer, s) := by
  refine ⟨unbegun, ?_⟩
  rintro _ ⟨⟩

theorem Unbegun.refuses {α : Type} (unbegun : s.Unbegun) {error : SessionError}
    (refusal : error.isRefusal = true) : @Remains α (.error error, s) := by
  refine ⟨unbegun, ?_⟩
  rintro _ ⟨⟩
  exact refusal

theorem Unbegun.resumeProgress (unbegun : s.Unbegun) : Remains s.resumeProgress := by
  unfold Session.resumeProgress
  split
  · exact unbegun.refuses rfl
  · exact unbegun.refuses rfl
  · dsimp only
    split_ifs <;> apply Unbegun.answers <;> exact ⟨unbegun.stage, unbegun.status⟩

theorem Unbegun.discardProgress (unbegun : s.Unbegun) : Remains s.discardProgress := by
  unfold Session.discardProgress
  split
  · exact unbegun.refuses rfl
  · apply Unbegun.answers
    exact ⟨unbegun.stage, unbegun.status⟩

theorem Unbegun.assign (unbegun : s.Unbegun) (key : Text) (header : Option Text) :
    Remains (s.assign key header) := by
  unfold Session.assign
  split
  · exact unbegun.refuses rfl
  · dsimp only
    split_ifs
    · exact unbegun.refuses rfl
    · split
      · exact unbegun.refuses rfl
      · apply Unbegun.answers
        exact ⟨unbegun.stage, unbegun.status⟩

theorem Unbegun.setLists (unbegun : s.Unbegun) (lists : List Text) : (s.setLists lists).Unbegun :=
  ⟨unbegun.stage, unbegun.status⟩

theorem Unbegun.run_error (unbegun : s.Unbegun) {error : SessionError} {next : Session}
    (refused : s.run = (.error error, next)) : next.Unbegun ∧ error.isRefusal = true := by
  unfold Session.run at refused
  split at refused
  · obtain ⟨⟨⟩, rfl⟩ := Prod.mk.inj refused
    exact ⟨unbegun, rfl⟩
  · rename_i file opened
    split_ifs at refused
    · obtain ⟨⟨⟩, rfl⟩ := Prod.mk.inj refused
      exact ⟨unbegun, rfl⟩
    · have inactive : s.engine.state.status.isActive = false := unbegun.isActive
      have unended : s.engine.state.status.isTerminal = false := by
        rw [unbegun.status]
        rfl
      cases valid : s.mapping.validate file.headers with
      | ok result =>
        simp [Engine.start, inactive, valid] at refused
      | error problem =>
        simp only [Engine.start, inactive, unended, valid, Bool.false_eq_true, if_false]
          at refused
        obtain ⟨⟨⟩, rfl⟩ := Prod.mk.inj refused
        exact ⟨unbegun, rfl⟩

/-- A run that is refused has not begun. -/
theorem Unbegun.begin (unbegun : s.Unbegun) {error : SessionError} {next : Session}
    (refused : s.begin = (.error error, next)) : next.Unbegun ∧ error.isRefusal = true := by
  unfold Session.begin startTask at refused
  cases ran : s.run with
  | mk answer left =>
    cases answer with
    | ok _ =>
      cases task : s.task <;>
        simp only [task, ran, Prod.mk.injEq, reduceCtorEq, false_and] at refused
      obtain ⟨⟨⟩, rfl⟩ := refused
      exact ⟨unbegun, rfl⟩
    | error problem =>
      obtain ⟨⟨stage, status⟩, refusal⟩ := unbegun.run_error ran
      have done : (left.finishTask (.error problem)).task = .done (.error problem) := by
        unfold finishTask
        dsimp only
        split_ifs <;> rfl
      cases task : s.task <;>
        simp only [task, ran, done, Prod.mk.injEq, Except.error.injEq] at refused <;>
        obtain ⟨rfl, rfl⟩ := refused
      case underway => exact ⟨unbegun, rfl⟩
      all_goals exact ⟨⟨by rwa [finishTask_engine], by rwa [finishTask_engine]⟩, refusal⟩

/-- A run that begins takes no more than four steps for each row of its file, and one. -/
theorem begin_endsWithin {begun : Session} (started : s.begin = (.ok (), begun)) :
    ∃ file, begun.file? = some file ∧ begun.engine.EndsWithin (4 * file.totalRows + 1) := by
  have begins : s.Begins begun := .inr started
  obtain ⟨file, opened, engine⟩ := begins.start
  obtain ⟨kept, dropped, valid⟩ := Engine.valid_of_start engine
  obtain ⟨e₀, first, same⟩ := Engine.start_valid s.engine ⟨file, s.mapping, s.lists, s.calendar⟩ s.resumeRow
    (Engine.idle_of_start engine) valid
  have next : begun.engine = e₀.nextBatch := congrArg Prod.snd (engine.symm.trans same)
  refine ⟨file, ?_, next ▸ Engine.endsWithin_begun first⟩
  obtain ⟨ran, run, rfl⟩ := begin_run started
  unfold Session.run at run
  rw [opened] at run
  dsimp only at run
  split_ifs at run
  · cases run
  · split at run
    · cases run
    · obtain ⟨_, rfl⟩ := Prod.mk.inj run
      rfl

end Session
end Intake
