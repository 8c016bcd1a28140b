import Intake.CommandLine.Import
import Intake.Proofs.Session.Unbegun

/-! What the steps of an import come to. A step either goes through or halts the import; each rule
says what is to be shown of its parts, so that what holds of an import before its run is carried from
one step to the next. -/
namespace Intake.CommandLine
variable {α β : Type} {i : Import} {done : α → Import → Prop} {halted : Halt → Import → Prop}

def Meets (step : Attempt α) (i : Import) (done : α → Import → Prop)
    (halted : Halt → Import → Prop) : Prop :=
  match step.run.run i with
  | (.ok x, j) => done x j
  | (.error halt, j) => halted halt j

namespace Meets

theorem pure {x : α} (holds : done x i) : Meets (Pure.pure x) i done halted := holds

theorem throw {halt : Halt} (holds : halted halt i) :
    @Meets α (throw halt) i done halted := holds

theorem get {done : Import → Import → Prop} (holds : done i i) :
    Meets (MonadState.get : Attempt Import) i done halted := holds

theorem modify {done : Unit → Import → Prop} {f : Import → Import} (holds : done () (f i)) :
    Meets (modify f) i done halted := holds

theorem mono {step : Attempt α} {done' : α → Import → Prop} {halted' : Halt → Import → Prop}
    (meets : Meets step i done halted) (through : ∀ x j, done x j → done' x j)
    (halts : ∀ halt j, halted halt j → halted' halt j) : Meets step i done' halted' := by
  unfold Meets at meets ⊢
  split at meets
  · exact through _ _ meets
  · exact halts _ _ meets

theorem bind {first : Attempt α} {next : α → Attempt β} {done : β → Import → Prop}
    (meets : Meets first i (fun x j => Meets (next x) j done halted) halted) :
    Meets (first >>= next) i done halted := by
  unfold Meets at meets
  split at meets <;> rename_i ran
  · simp only [Meets, ExceptT.run_bind, StateT.run_bind, ran]
    exact meets
  · simp only [Meets, ExceptT.run_bind, StateT.run_bind, ran]
    exact meets

theorem discard {step : Attempt α} {done : Unit → Import → Prop}
    (meets : Meets step i (fun _ => done ()) halted) : Meets (discard step) i done halted := by
  have mapped : Meets ((fun _ => ()) <$> step) i done halted := by
    rw [← bind_pure_comp]
    exact .bind (meets.mono (fun _ _ => .pure) fun _ _ => id)
  exact mapped

theorem forM {α : Type} {step : α → Attempt Unit} {holds : Import → Prop}
    (each : ∀ x i, holds i → Meets (step x) i (fun _ => holds) halted) (items : List α)
    (start : holds i) : Meets (items.forM step) i (fun _ => holds) halted := by
  induction items generalizing i with
  | nil => exact .pure start
  | cons x rest ih => exact .bind ((each x i start).mono (fun _ _ => ih) fun _ _ => id)

theorem attempt {f : Session → Except SessionError α × Session}
    (through : ∀ x, (f i.session).1 = .ok x →
      done x { i with session := (f i.session).2 }.listen)
    (halts : ∀ error, (f i.session).1 = .error error →
      halted (.ofSession error) { i with session := (f i.session).2 }.listen) :
    Meets (attempt f) i done halted := by
  refine .bind (.get ?_)
  cases answered : f i.session with
  | mk answer session =>
    rw [answered] at through halts
    cases answer with
    | ok x => exact through x rfl
    | error error => exact halts error rfl

end Meets

structure Refused (halt : Halt) (i : Import) : Prop where
  unbegun : i.session.Unbegun
  refusal : ∃ record, halt = .refused record

theorem Halt.ofSession_refusal {error : SessionError} (refusal : error.isRefusal = true) :
    Halt.ofSession error = .refusedFor error.message := by
  cases error with
  | load | progress => cases refusal
  | start problem =>
    cases problem with
    | active => cases refusal
    | mapping => rfl
  | _ => rfl

/-- What a session answers before its run is its answer, or halts the import with a refusal. -/
theorem meets_remains {f : Session → Except SessionError α × Session}
    (remains : Session.Remains (f i.session)) :
    Meets (attempt f) i (fun _ j => j.session.Unbegun) Refused := by
  have unbegun : { i with session := (f i.session).2 }.listen.session.Unbegun :=
    ⟨remains.unbegun.stage, remains.unbegun.status⟩
  exact .attempt (fun _ _ => unbegun) fun error failed =>
    ⟨unbegun, _, Halt.ofSession_refusal (remains.refusal error failed)⟩

theorem meets_decide (arguments : Arguments) (saved : Option Checkpoint) (answer : Option Text)
    (unbegun : i.session.Unbegun) :
    Meets (decide arguments saved answer) i (fun _ j => j.session.Unbegun) Refused := by
  have resumed : Meets (Functor.discard (attempt (·.resumeProgress))) i
      (fun _ j => j.session.Unbegun) Refused :=
    .discard (meets_remains unbegun.resumeProgress)
  unfold decide
  split_ifs
  · refine .bind (resumed.mono ?_ fun _ _ => id)
    exact fun _ j left => meets_remains ⟨left.setLists _, nofun⟩
  · refine .bind (resumed.mono ?_ fun _ _ => id)
    exact fun _ j left => .pure left
  · exact meets_remains unbegun.discardProgress
  · exact .pure unbegun

theorem meets_assign (item : Text) (unbegun : i.session.Unbegun) :
    Meets (assign item) i (fun _ j => j.session.Unbegun) Refused := by
  unfold CommandLine.assign
  split
  · exact .throw ⟨unbegun, _, rfl⟩
  · exact .discard (meets_remains (unbegun.assign _ _))

def Begun (i : Import) : Prop :=
  ∃ file, i.session.file? = some file ∧ i.session.engine.EndsWithin (4 * file.totalRows + 1)

theorem meets_prepare (arguments : Arguments) (saved : Option Checkpoint) (answer : Option Text)
    (unbegun : i.session.Unbegun) :
    Meets (prepare arguments saved answer) i (fun _ => Begun) Refused := by
  refine .bind ((meets_decide arguments saved answer unbegun).mono ?_ fun _ _ => id)
  intro _ j decided
  refine .bind ((Meets.forM (fun item _ => meets_assign item) _ decided).mono ?_ fun _ _ => id)
  intro _ k assigned
  refine .bind (.get ?_)
  split_ifs with runnable
  · exact .throw ⟨assigned, _, rfl⟩
  · refine .attempt (fun _ began => ?_) fun error refused => ?_
    · have started : k.session.begin = (.ok (), k.session.begin.2) := Prod.ext began rfl
      obtain ⟨file, opened, ends⟩ := Session.begin_endsWithin started
      exact ⟨file, opened, ends.onward, ends.bound⟩
    · obtain ⟨left, refusal⟩ := assigned.begin (Prod.ext refused rfl)
      exact ⟨⟨left.stage, left.status⟩, _, Halt.ofSession_refusal refusal⟩

theorem Halt.ofSession_load (error : LoadError) :
    Halt.ofSession (.load error)
      = if error.isForeseen then .refusedFor error.message else .crash (.session (.load error)) := by
  cases error with
  | file path problem => cases problem <;> rfl
  | _ => rfl

inductive Bars (i : Import) (path : Path) : Halt → Prop
  | refused (record : Log.Record) : Bars i path (.refused record)
  | file {error : LoadError} (failed : ContactFile.load i.tree path {} = .error error)
      (unforeseen : error.isForeseen = false) :
      Bars i path (.crash (.session (.load error)))
  | progress {file : ContactFile} {failure : LoadFailure}
      (loaded : ContactFile.load i.tree path {} = .ok file)
      (failed : (i.session.engine.store.load i.session.workspace file.name).1 = .error failure) :
      Bars i path (.crash (.session (.progress failure)))

theorem meets_openInput (arguments : Arguments) (unbegun : i.session.Unbegun) :
    Meets (openInput arguments) i (fun _ j => j.session.Unbegun)
      fun halt j => j.session.Unbegun ∧ Bars i (Path.ofText arguments.input) halt := by
  obtain ⟨left, unopened⟩ := unbegun.openFile i.tree (Path.ofText arguments.input)
  refine .bind (.get (.attempt (fun _ _ => ⟨left.stage, left.status⟩) fun error failed => ?_))
  refine ⟨⟨left.stage, left.status⟩, ?_⟩
  cases unopened error failed with
  | @file error unloaded =>
    rw [Halt.ofSession_load]
    split_ifs with foreseen
    · exact .refused _
    · exact .file unloaded (by simpa using foreseen)
  | progress loaded unsettled => exact .progress loaded unsettled

end Intake.CommandLine
