import Intake.Proofs.Checkpoint.Spent
import Intake.Proofs.Run.Progress

/-! What a run makes of its storage. It saves its progress, and clears and announces nothing. Once
progress at the end of its file was saved, no progress of a row takes its place, and a later save that
fails leaves it there. -/
namespace Intake

namespace Event

def isSave : Event → Bool
  | stored (.saved ..) | stored (.saveFailed ..) => true
  | _ => false

def savesEnd (file : ContactFile) : Event → Bool
  | stored (.saved fileName (.integer row) (.integer totalRows) _) =>
    fileName = file.name ∧ row = file.totalRows ∧ totalRows = file.totalRows
  | _ => false

theorem isSave_of_savesEnd {file : ContactFile} {event : Event} (ends : event.savesEnd file = true) :
    event.isSave = true := by
  unfold savesEnd at ends
  split at ends
  · rfl
  · cases ends

theorem isKeeping_of_isSave {event : Event} (saves : event.isSave = true) :
    event.isKeeping = true := by
  cases event <;> first | rfl | cases saves

end Event

structure Job.Mapped (job : Job) : Prop where
  distinct : (Entries.keys job.mapping).Nodup
  mapped : ∀ entry ∈ job.mapping, entry.1.isJoined = true ∧ entry.2 ≠ []

namespace Engine
variable {before e e' : Engine} {plan : Job}

structure Quiet (e e' : Engine) : Prop where
  storage : e'.store.storage = e.store.storage
  row : e'.state.row = e.state.row
  keepings : keepings e'.journal = keepings e.journal

structure Savable (before : Engine) (plan : Job) (e : Engine) : Prop where
  workspace : e.workspace = before.workspace
  job : e.job? = some plan
  total : e.state.totalRows = plan.file.totalRows
  low : 0 ≤ e.state.row
  high : e.state.row ≤ plan.file.totalRows
  shown : Shown e

theorem Savable.carry (savable : Savable before plan e) (workspace : e'.workspace = e.workspace)
    (job : e'.job? = e.job?) (same : plan.progress e'.state 0 = plan.progress e.state 0)
    (now : e'.store.now = e.store.now) : Savable before plan e' := by
  simp only [Job.progress, Checkpoint.mk.injEq, true_and, and_true] at same
  obtain ⟨row, total, batch, totalBatches⟩ := same
  exact
    { workspace := workspace.trans savable.workspace
      job := job.trans savable.job
      total := total.trans savable.total
      low := row ▸ savable.low
      high := row ▸ savable.high
      shown := savable.shown.carry batch totalBatches now }

theorem Savable.definite (savable : Savable before plan e) (mapped : plan.Mapped)
    (bounded : Bounded before plan) : (plan.progress e.state e.store.now).Definite := by
  have rows := bounded.rows
  obtain ⟨_, _, total, low, high, shown⟩ := savable
  exact
    { distinct := mapped.distinct
      mapped := mapped.mapped
      row := Binary64.isSome_ofInt?_of_lt low (by simp; omega)
      totalRows := Binary64.isSome_ofInt?_of_lt (by simp; omega) (by simp; omega)
      batch := shown.batch
      totalBatches := shown.totalBatches
      savedAt := shown.now }

structure Keeping (before : Engine) (plan : Job) (e : Engine) : Prop where
  told : ∃ new, keepings e.journal = new ++ keepings before.journal ∧
    (∀ event ∈ new, event.isSave = true) ∧
    ∀ event ∈ new, event.savesEnd plan.file = true →
      e.state.row = plan.file.totalRows ∧ e.store.Exhausted (before.workspace, plan.file.name)
  text : ∀ t, before.store.storage.medium.get (progressKey before.workspace plan.file.name)
      = .ok (some t) →
    ∃ t', e.store.storage.medium.get (progressKey before.workspace plan.file.name) = .ok (some t')

namespace Keeping

theorem quiet (keeping : Keeping before plan e) (step : Quiet e e') : Keeping before plan e' := by
  obtain ⟨⟨new, journal, saves, ends⟩, text⟩ := keeping
  refine ⟨⟨new, step.keepings.trans journal, saves, ?_⟩, ?_⟩
  · intro event here last
    obtain ⟨row, exhausted⟩ := ends event here last
    exact ⟨step.row.trans row, exhausted.of_get (by rw [step.storage])⟩
  · rw [step.storage]
    exact text

theorem advance (keeping : Keeping before plan e) (inside : e.state.row < plan.file.totalRows)
    (row : Int) : Keeping before plan { e with state := { e.state with row } } := by
  obtain ⟨⟨new, journal, saves, ends⟩, text⟩ := keeping
  refine ⟨⟨new, journal, saves, ?_⟩, text⟩
  intro event here last
  exact absurd (ends event here last).1 (Int.ne_of_lt inside)

theorem save (keeping : Keeping before plan e) (savable : Savable before plan e)
    (mapped : plan.Mapped) (bounded : Bounded before plan) : Keeping before plan e.save := by
  obtain ⟨⟨new, journal, saves, ends⟩, text⟩ := keeping
  let c := plan.progress e.state 0
  have saving : e.save =
      ({ e with store := (e.store.save before.workspace plan.file.name c).2.2 }.note
        (.handed c)).note (.stored (e.store.save before.workspace plan.file.name c).2.1) := by
    simp [Engine.save, saveProgress, snapshot?_eq savable.job, savable.workspace, c]
  have definite : { c with savedAt := e.store.now }.Definite := savable.definite mapped bounded
  -- Whatever becomes of the save, progress at the end is kept if it was, or is if it is saved now.
  have exhausts (last : e.state.row = plan.file.totalRows) :=
    @ProgressStore.exhausted_save e.store before.workspace plan.file.name c definite
      (by simp [c, last, savable.total])
  rw [saving]
  refine ⟨?_, fun t got => ?_⟩
  · obtain ⟨error, next, failed, _⟩ | ⟨text, next, saved, _⟩ :=
      e.store.save_cases before.workspace plan.file.name c
    · rw [failed] at exhausts ⊢
      refine ⟨_ :: new, by simp [Event.isKeeping, journal]; rfl, ?_, ?_⟩
      · exact List.forall_mem_cons.mpr ⟨rfl, saves⟩
      · intro event here last
        rcases List.mem_cons.mp here with rfl | earlier
        · cases last
        · obtain ⟨row, exhausted⟩ := ends event earlier last
          exact ⟨row, exhausts row (.inr exhausted)⟩
    · rw [saved] at exhausts ⊢
      refine ⟨_ :: new, by simp [Event.isKeeping, journal]; rfl, ?_, ?_⟩
      · exact List.forall_mem_cons.mpr ⟨rfl, saves⟩
      · intro event here last
        have row : e.state.row = plan.file.totalRows := by
          rcases List.mem_cons.mp here with rfl | earlier
          · simp only [Event.savesEnd, decide_eq_true_eq] at last
            exact last.2.1
          · exact (ends event earlier last).1
        exact ⟨row, exhausts row (.inl rfl)⟩
  · obtain ⟨t', kept⟩ := text t got
    simp only [note_fields]
    exact e.store.get_save before.workspace plan.file.name c kept

theorem noteAll (keeping : Keeping before plan e) (discards : List Discard) :
    Keeping before plan (e.noteAll (discards.map .discarded)) := by
  have silent : keepings (discards.map Event.discarded).reverse = [] := by
    simp [keepings, Event.isKeeping]
  exact keeping.quiet ⟨rfl, rfl, by simp [silent]⟩

theorem fail (keeping : Keeping before plan e) (savable : Savable before plan e)
    (mapped : plan.Mapped) (bounded : Bounded before plan) (failure : Failure) :
    Keeping before plan (e.fail failure) := by
  let failed := { e with state := { e.state with fatal := some failure.text } }.enter .failed
  have entered : Keeping before plan failed :=
    keeping.quiet ⟨rfl, rfl, by simp [failed, Event.isKeeping]⟩
  have saved := entered.save (savable.carry rfl rfl rfl rfl) mapped bounded
  exact saved.quiet ⟨rfl, rfl, by simp [Engine.fail, conclude, notify, Event.isKeeping, failed]⟩

theorem interrupted (keeping : Keeping before plan e) (savable : Savable before plan e)
    (mapped : plan.Mapped) (bounded : Bounded before plan) :
    Keeping before plan e.interrupted :=
  (keeping.save savable mapped bounded).quiet
    ⟨rfl, rfl, by simp [Engine.interrupted, setStatus, Event.isKeeping]⟩

theorem operate (keeping : Keeping before plan e) (savable : Savable before plan e)
    (mapped : plan.Mapped) (bounded : Bounded before plan) (action : Action) :
    Keeping before plan (e.operate action).2 := by
  have ignored (action : Action) : Keeping before plan (e.ignore action).2 :=
    keeping.quiet ⟨rfl, rfl, by simp [ignore, Event.isKeeping]⟩
  cases action with
  | pause =>
    by_cases running : e.state.status = .running
    · let paused := { e.setStatus .paused with released := false }
      have held : Keeping before plan paused := keeping.quiet ⟨rfl, rfl, rfl⟩
      have saved := held.save (savable.carry rfl rfl rfl rfl) mapped bounded
      simp only [Engine.operate, pause, if_pos running]
      exact saved.quiet ⟨rfl, rfl, by simp [notify, Event.isKeeping, paused]⟩
    · simp only [Engine.operate, pause, if_neg running]
      exact ignored .pause
  | resume =>
    by_cases paused : e.state.status = .paused
    · simp only [Engine.operate, resume, if_pos paused]
      exact keeping.quiet ⟨rfl, rfl, by simp [notify, Event.isKeeping]⟩
    · simp only [Engine.operate, resume, if_neg paused]
      exact ignored .resume
  | cancel =>
    by_cases going : e.state.status = .running ∨ e.state.status = .paused
    · simp only [Engine.operate, cancel, if_pos going]
      exact (keeping.save savable mapped bounded).quiet
        ⟨rfl, rfl, by simp [notify, Event.isKeeping]⟩
    · simp only [Engine.operate, cancel, if_neg going]
      exact ignored .cancel

end Keeping

namespace Course
variable {first : Nat} {moves : List Move} {new : List Event} {p : Point}

theorem savable (course : Course before plan first moves new p e) (bounded : Bounded before plan) :
    Savable before plan e := by
  obtain ⟨workspace, job, total, low, high, _⟩ := course.placed
  exact ⟨workspace, job, total, by omega, high, course.shown bounded⟩

/-- Before a row of a batch a run has not come to the end of its file. -/
theorem before_end {row stop : Nat} (course : Course before plan first moves new (.row row stop) e) :
    e.state.row < plan.file.totalRows := by
  generalize here : Point.row row stop = p at course
  induction course generalizing row stop with
  | opened stop course left going ends batch counted ih => exact course.placed.total ▸ left
  | skipped course inside unpaused going read blank ih => exact ih rfl
  | returned course noticed ih =>
    have fits := course.placed.fits
    simp only [Point.Fits, noticed] at fits
    omega
  | released course waiting signal ih =>
    have fits := course.placed.fits
    simp only [Point.Fits, waiting] at fits
    omega
  | _ => cases here

/-- Throughout a run all that becomes of its storage is that progress is saved. -/
theorem keeping (course : Course before plan first moves new p e) (mapped : plan.Mapped)
    (bounded : Bounded before plan) : Keeping before plan e := by
  induction course with
  | begun begun =>
    refine ⟨⟨[], begun.keepings, by simp, by simp⟩, fun t got => ⟨t, ?_⟩⟩
    rw [begun.store]
    exact got
  | opened stop course left going ends batch counted ih =>
    exact ih.quiet ⟨rfl, rfl, by simp [Event.isKeeping]⟩
  | finished course ending ih =>
    exact ih.quiet ⟨rfl, rfl, by simp [finish, conclude, notify, Event.isKeeping]⟩
  | held course inside paused ih => exact ih.quiet ⟨rfl, rfl, rfl⟩
  | stopped course inside cancelling ih =>
    exact ih.quiet ⟨rfl, rfl, by simp [finish, conclude, notify, Event.isKeeping]⟩
  | @raised _ _ e row stop discards error course inside unpaused going read ih =>
    exact (ih.noteAll discards).fail ((course.savable bounded).carry rfl rfl rfl rfl) mapped bounded _
  | skipped course inside unpaused going read blank ih => exact ih.noteAll _
  | @submitted _ _ e row stop discards contact course inside unpaused going read due ih =>
    exact (ih.noteAll discards).quiet ⟨rfl, rfl, by simp [Event.isKeeping]⟩
  | @closed _ _ e row stop course outside ih =>
    let closed := { e with state := { e.state with row := (stop : Int) } }
    have savable : Savable before plan closed := by
      obtain ⟨workspace, job, total, low, _, shown⟩ := course.savable bounded
      obtain ⟨_, _, _, within⟩ := course.placed.fits
      exact ⟨workspace, job, total, Int.natCast_nonneg stop, Int.ofNat_le.mpr within,
        shown.carry rfl rfl rfl⟩
    have saved := (ih.advance course.before_end stop).save savable mapped bounded
    exact saved.quiet ⟨rfl, rfl, by simp [closeBatch, notify, Event.isKeeping]⟩
  | accepted course called ih =>
    refine ih.quiet ⟨?_, ?_, ?_⟩ <;> simp [answer, called, notify, Event.isKeeping]
  | rejected course called failure ih =>
    refine ih.quiet ⟨?_, ?_, ?_⟩ <;>
      simp [answer, called, notify, Event.isKeeping, RunState.reject]
  | @cutOff _ _ e row stop contact course called move cut ih =>
    let noted := e.note (.replied row .interrupted)
    have replied : Keeping before plan noted :=
      ih.quiet ⟨rfl, rfl, by simp [noted, Event.isKeeping]⟩
    exact replied.interrupted ((course.savable bounded).carry rfl rfl rfl rfl) mapped bounded
  | interrupted course waiting ih => exact ih.interrupted (course.savable bounded) mapped bounded
  | returned course noticed ih => exact ih
  | yielded course noticed ih => exact ih.quiet ⟨rfl, rfl, rfl⟩
  | crashed course noticed failure ih => exact ih.fail (course.savable bounded) mapped bounded failure
  | ended course noticed failure? outcome ih =>
    exact ih.quiet ⟨rfl, rfl, by simp [Event.isKeeping]⟩
  | continued course waiting ih => exact ih
  | released course waiting signal ih => exact ih
  | operated course action ih => exact ih.operate (course.savable bounded) mapped bounded action
  | saved course ih => exact ih.save (course.savable bounded) mapped bounded
  | ticked course now shown ih => exact ih.quiet ⟨rfl, rfl, rfl⟩

/-- Since its start a run has told of saves alone; if one of them was at the end of the file, what is
kept is exhausted. -/
theorem told (course : Course before plan first moves new p e) (mapped : plan.Mapped)
    (bounded : Bounded before plan) :
    ∃ happened, e.journal = happened ++ before.journal ∧
      (∀ event ∈ happened, event.isKeeping = true → event.isSave = true) ∧
      ∀ event ∈ happened, event.savesEnd plan.file = true →
        e.store.Exhausted (before.workspace, plan.file.name) := by
  obtain ⟨happened, journal, _⟩ := course.happened
  obtain ⟨told, same, saves, ends⟩ := (course.keeping mapped bounded).told
  have kept : keepings happened = told := by
    rw [journal, keepings_append] at same
    exact List.append_cancel_right same
  have member {event : Event} (here : event ∈ happened) (keeps : event.isKeeping = true) :
      event ∈ told := kept ▸ List.mem_filter.mpr ⟨here, keeps⟩
  refine ⟨happened, journal, fun event here keeps => saves event (member here keeps), ?_⟩
  intro event here last
  have keeps := Event.isKeeping_of_isSave (Event.isSave_of_savesEnd last)
  exact (ends event (member here keeps) last).2

end Course

end Engine
end Intake
