import Intake.Proofs.Checkpoint.Store
import Intake.Proofs.Run.Deliveries
import Intake.Proofs.Run.Numbers

/-! The progress that a run saves. It is never ahead of the deliveries that have ended, it never goes
back, and once a run was cancelled or has failed the stored progress is that of its last row. -/
namespace Intake

def Job.progress (job : Job) (state : RunState) (savedAt : Int) : Checkpoint :=
  { fileName := job.file.name
    row := state.row
    totalRows := state.totalRows
    batch := state.batch
    totalBatches := state.totalBatches
    mapping := job.mapping
    lists := job.lists
    savedAt }

@[simp] theorem Job.progress_fields (job : Job) (state : RunState) (savedAt : Int) :
    (job.progress state savedAt).fileName = job.file.name ∧
      (job.progress state savedAt).row = state.row ∧
      (job.progress state savedAt).totalRows = state.totalRows ∧
      (job.progress state savedAt).mapping = job.mapping ∧
      (job.progress state savedAt).lists = job.lists :=
  ⟨rfl, rfl, rfl, rfl, rfl⟩

namespace Engine

structure InRange (c : Checkpoint) : Prop where
  batch : (Binary64.ofInt? c.batch).isSome = true
  totalBatches : (Binary64.ofInt? c.totalBatches).isSome = true
  savedAt : (Binary64.ofInt? c.savedAt).isSome = true

def Kept (before : Engine) (plan : Job) (e : Engine) : Prop :=
  ∃ c : Checkpoint, e.store.Holds e.workspace plan.file.name c ∧ c.fileName = plan.file.name ∧
    c.row = e.state.row ∧ c.totalRows = e.state.totalRows ∧ c.mapping = plan.mapping ∧
    c.lists = plan.lists ∧ (Bounded before plan → InRange c)

theorem snapshot?_eq {e : Engine} {plan : Job} (job : e.job? = some plan) :
    e.snapshot? = some (plan.progress e.state 0) := by
  simp [snapshot?, job, Job.progress]

theorem handover_eq {e : Engine} {plan : Job} (job : e.job? = some plan) :
    e.handover = [.handed (plan.progress e.state 0)] := by
  simp [handover, snapshot?_eq job]

def losses (e : Engine) : Nat := e.journal.countP Event.isLoss

theorem losses_le {e e' : Engine} (kept : e.journal <:+ e'.journal) : e.losses ≤ e'.losses :=
  kept.sublist.countP_le

theorem kept_save {before e : Engine} {plan : Job} (job : e.job? = some plan)
    (shown : Bounded before plan → Shown e) (lossless : e.save.losses = e.losses) :
    Kept before plan e.save := by
  obtain ⟨error, next, failed, _⟩ | ⟨text, next, saved, held⟩ :=
    e.store.save_cases e.workspace plan.file.name (plan.progress e.state 0)
  · have lost : e.save.losses = e.losses + 1 := by
      simp [save, saveProgress, snapshot?_eq job, losses, failed, List.countP_cons, Event.isLoss]
    omega
  · have store : e.save.store = next := by simp [save, saveProgress, snapshot?_eq job, saved]
    refine ⟨plan.progress e.state e.store.now, ?_, ?_⟩
    · rw [store, (save_fields e).1]
      exact held
    · simp only [Job.progress_fields, save_fields, true_and]
      exact fun bounded =>
        ⟨(shown bounded).batch, (shown bounded).totalBatches, (shown bounded).now⟩

theorem Kept.carry {before e e' : Engine} {plan : Job} (kept : Kept before plan e)
    (storage : e'.store.storage = e.store.storage) (workspace : e'.workspace = e.workspace)
    (row : e'.state.row = e.state.row) (total : e'.state.totalRows = e.state.totalRows) :
    Kept before plan e' := by
  obtain ⟨c, held, named, at_row, of_total, fields⟩ := kept
  refine ⟨c, ?_, named, at_row.trans row.symm, of_total.trans total.symm, fields⟩
  rw [ProgressStore.Holds, storage, workspace]
  exact held

private theorem losses_note (e : Engine) {event : Event} (other : event.isLoss = false) :
    (e.note event).losses = e.losses := by
  simp [losses, other]

private theorem kept_step {before e e' : Engine} {plan : Job} (saving : Engine)
    (job : saving.job? = some plan) (shown : Bounded before plan → Shown saving)
    (start : saving.losses = e.losses) (after : e'.losses = saving.save.losses)
    (lossless : e'.losses = e.losses) (store : e'.store = saving.save.store)
    (workspace : e'.workspace = saving.workspace) (row : e'.state.row = saving.state.row)
    (total : e'.state.totalRows = saving.state.totalRows) : Kept before plan e' :=
  (kept_save job shown (after.symm.trans (lossless.trans start.symm))).carry (by rw [store])
    (by simpa using workspace) (by simpa using row) (by simpa using total)

private theorem kept_fail {before e : Engine} {plan : Job} {failure : Failure}
    (job : e.job? = some plan) (shown : Bounded before plan → Shown e)
    (lossless : (e.fail failure).losses = e.losses) : Kept before plan (e.fail failure) := by
  let failed := { e with state := { e.state with fatal := some failure.text } }.enter .failed
  have ended : (e.fail failure).losses = failed.save.losses := losses_note _ rfl
  exact kept_step failed job (fun bounded => (shown bounded).carry rfl rfl rfl)
    (losses_note _ rfl) ended lossless rfl (by simp [failed]) (by simp [failed]) (by simp [failed])

private theorem kept_interrupted {before e : Engine} {plan : Job} (job : e.job? = some plan)
    (shown : Bounded before plan → Shown e) (lossless : e.interrupted.losses = e.losses) :
    Kept before plan e.interrupted := by
  have ended : e.interrupted.losses = e.save.losses :=
    (losses_note _ rfl).trans (losses_note _ rfl)
  exact kept_step e job shown rfl ended lossless rfl (by simp) (by simp) (by simp)

private theorem kept_closeBatch {before e : Engine} {plan : Job} {stop : Nat}
    (job : e.job? = some plan) (shown : Bounded before plan → Shown e)
    (lossless : (e.closeBatch stop).losses = e.losses) :
    Kept before plan (e.closeBatch stop) := by
  let closed := { e with state := { e.state with row := (stop : Int) } }
  have ended : (e.closeBatch stop).losses = closed.save.losses := losses_note _ rfl
  exact kept_step closed job (fun bounded => (shown bounded).carry rfl rfl rfl) rfl ended lossless
    rfl (by simp [closed]) (by simp [closed]) (by simp [closed])

private theorem kept_operate {before e : Engine} {plan : Job} {action : Action}
    (job : e.job? = some plan) (shown : Bounded before plan → Shown e)
    (lossless : (e.operate action).2.losses = e.losses)
    (still : (e.operate action).2.state.status ≠ .running)
    (start : e.state.status ≠ .running → Kept before plan e) :
    Kept before plan (e.operate action).2 := by
  cases action with
  | pause =>
    by_cases running : e.state.status = .running
    · let paused := { e.setStatus .paused with released := false }
      have ended : (e.operate .pause).2.losses = paused.save.losses := by
        simp only [operate, pause, if_pos running]
        exact (losses_note _ rfl).trans (losses_note _ rfl)
      have store : (e.operate .pause).2.store = paused.save.store := by
        simp only [operate, pause, if_pos running]
        rfl
      exact kept_step paused job (fun bounded => (shown bounded).carry rfl rfl rfl) rfl ended
        lossless store (by simp [paused, setStatus]) (by simp [paused, setStatus])
        (by simp [paused, setStatus])
    · simp only [operate, pause, if_neg running]
      exact (start running).carry rfl rfl rfl rfl
  | resume =>
    by_cases paused : e.state.status = .paused
    · simp [paused, Action.on] at still
    · simp only [operate, resume, if_neg paused] at still ⊢
      exact (start still).carry rfl rfl rfl rfl
  | cancel =>
    by_cases going : e.state.status = .running ∨ e.state.status = .paused
    · have ended : (e.operate .cancel).2.losses = e.save.losses := by
        simp only [operate, cancel, if_pos going]
        exact (losses_note _ rfl).trans (losses_note _ rfl)
      have store : (e.operate .cancel).2.store = e.save.store := by
        simp only [operate, cancel, if_pos going]
        rfl
      exact kept_step e job shown rfl ended lossless store (by simp) (by simp) (by simp)
    · simp only [operate, cancel, if_neg going] at still ⊢
      exact (start still).carry rfl rfl rfl rfl

/-- A run that is neither going on nor completed keeps the progress of its row, unless some was
lost. -/
theorem Course.kept {before e : Engine} {plan : Job} {first : Nat} {moves : List Move}
    {new : List Event} {p : Point} (course : Course before plan first moves new p e)
    (lossless : e.losses = before.losses)
    (still : e.state.status ≠ .running ∧ e.state.status ≠ .completed) : Kept before plan e := by
  have since {e e' : Engine} {moves : List Move} {new : List Event} {p : Point}
      (course : Course before plan first moves new p e) (kept : e.journal <:+ e'.journal)
      (lossless : e'.losses = before.losses) :
      e.losses = before.losses ∧ e'.losses = e.losses := by
    have start := losses_le course.marked.1
    have step := losses_le kept
    omega
  induction course with
  | begun begun => simp [begun.state, reset] at still
  | opened stop course left going ends batch counted ih =>
    obtain ⟨start, _⟩ := since course (List.suffix_cons _ _) lossless
    exact (ih start still).carry rfl rfl rfl rfl
  | @finished _ _ e course ending ih =>
    have cancelling : e.state.status = .cancelling := by
      by_contra other
      simp [other] at still
    obtain ⟨start, _⟩ := since course (by simp) lossless
    exact (ih start (by simp [cancelling])).carry (by simp) (by simp) (by simp) (by simp)
  | held course inside paused ih => exact (ih lossless still).carry rfl rfl rfl rfl
  | stopped course inside cancelling ih =>
    obtain ⟨start, _⟩ := since course (by simp) lossless
    exact (ih start (by simp [cancelling])).carry (by simp) (by simp) (by simp) (by simp)
  | @raised _ _ e row stop discards error course inside unpaused going read ih =>
    let noted := e.noteAll (discards.map .discarded)
    have quiet : noted.losses = e.losses := by
      simp [noted, losses, List.countP_eq_zero, Event.isLoss]
    have failing : noted.journal <:+ (noted.fail ⟨"ValueError", error.message⟩).journal := by simp
    obtain ⟨_, step⟩ := since course ((List.suffix_append _ _).trans failing) lossless
    exact kept_fail (e := noted) course.placed.job
      (fun bounded => (course.shown bounded).carry rfl rfl rfl) (step.trans quiet.symm)
  | skipped course inside unpaused going read blank ih =>
    obtain ⟨start, _⟩ := since course (List.suffix_append _ _) lossless
    exact (ih start still).carry rfl rfl rfl rfl
  | submitted course inside unpaused going read due ih =>
    obtain ⟨start, _⟩ := since course ((List.suffix_append _ _).trans (List.suffix_cons _ _)) lossless
    exact (ih start still).carry rfl rfl rfl rfl
  | closed course outside ih =>
    obtain ⟨_, step⟩ := since course (by simp) lossless
    exact kept_closeBatch course.placed.job course.shown step
  | accepted course called ih =>
    obtain ⟨start, _⟩ := since course (by simp [accepted_fields called]) lossless
    refine (ih start ?_).carry ?_ ?_ ?_ ?_ <;> simp_all [accepted_fields called]
  | rejected course called failure ih =>
    obtain ⟨start, _⟩ := since course (by simp [rejected_fields called]) lossless
    refine (ih start ?_).carry ?_ ?_ ?_ ?_ <;> simp_all [rejected_fields called, RunState.reject]
  | @cutOff _ _ e row stop contact course called move cut ih =>
    let noted := e.note (.replied row .interrupted)
    have ending : noted.journal <:+ noted.interrupted.journal := by simp
    obtain ⟨_, step⟩ := since course ((List.suffix_cons _ _).trans ending) lossless
    exact kept_interrupted (e := noted) course.placed.job
      (fun bounded => (course.shown bounded).carry rfl rfl rfl)
      (step.trans (losses_note e rfl).symm)
  | interrupted course waiting ih =>
    obtain ⟨_, step⟩ := since course (by simp) lossless
    exact kept_interrupted course.placed.job course.shown step
  | returned course noticed ih => exact ih lossless still
  | yielded course noticed ih => exact (ih lossless still).carry rfl rfl rfl rfl
  | crashed course noticed failure ih =>
    obtain ⟨_, step⟩ := since course (by simp) lossless
    exact kept_fail course.placed.job course.shown step
  | ended course noticed failure? outcome ih =>
    obtain ⟨start, _⟩ := since course (List.suffix_cons _ _) lossless
    exact (ih start still).carry rfl rfl rfl rfl
  | continued course waiting ih => exact ih lossless still
  | released course waiting signal ih => exact ih lossless still
  | @operated _ _ e course action ih =>
    obtain ⟨start, step⟩ := since course (by simp) lossless
    have unfinished : e.state.status ≠ .completed := by simpa using still.2
    exact kept_operate course.placed.job course.shown step still.1 fun stopped => ih start ⟨stopped, unfinished⟩
  | saved course ih =>
    obtain ⟨_, step⟩ := since course (by simp) lossless
    exact kept_save course.placed.job course.shown step
  | ticked course now shown ih => exact (ih lossless still).carry rfl rfl rfl rfl

theorem Course.lossless {before e : Engine} {plan : Job} {first : Nat} {moves : List Move}
    {new : List Event} {p : Point} (course : Course before plan first moves new p e)
    (silent : ∀ event ∈ before.since e, event.isLoss = false) : e.losses = before.losses := by
  obtain ⟨happened, journal, _, since⟩ := course.happened
  have none : happened.countP Event.isLoss = 0 := by
    simpa [since, List.countP_eq_zero] using silent
  simp [losses, journal, none]

structure Behind (plan : Job) (first : Nat) (c : Checkpoint) (earlier : List Event) : Prop where
  low : first ≤ c.row
  high : c.row ≤ plan.file.totalRows
  ended : ∀ row ∈ plan.dueRows first c.row.toNat, ∃ reply, .replied row reply ∈ earlier

structure Timely (plan : Job) (first : Nat) (new : List Event) (e : Engine) : Prop where
  behind : ∀ later c earlier, new = later ++ .handed c :: earlier → Behind plan first c earlier
  ordered : (e.state.row :: (new.filterMap Event.handed?).map (·.row)).Pairwise (· ≥ ·)

namespace Timely
variable {plan : Job} {first : Nat} {new : List Event} {e e' : Engine}

private theorem carry (timely : Timely plan first new e) (row : e.state.row ≤ e'.state.row) :
    Timely plan first new e' := by
  refine ⟨timely.behind, ?_⟩
  have ordered := timely.ordered
  rw [List.pairwise_cons] at ordered ⊢
  exact ⟨fun other here => Int.le_trans (ordered.1 other here) row, ordered.2⟩

private theorem cons {event : Event} (timely : Timely plan first new e)
    (other : event.handed? = none) : Timely plan first (event :: new) e := by
  refine ⟨?_, by simpa [List.filterMap_cons, other] using timely.ordered⟩
  intro later c earlier split
  cases later with
  | nil =>
    obtain ⟨rfl, rfl⟩ := List.cons.inj split
    simp [Event.handed?] at other
  | cons _ later => exact timely.behind later c earlier (List.cons.inj split).2

private theorem hand {c : Checkpoint} (timely : Timely plan first new e)
    (behind : Behind plan first c new) (row : c.row = e.state.row) :
    Timely plan first (.handed c :: new) e := by
  refine ⟨?_, ?_⟩
  · intro later other earlier split
    cases later with
    | nil =>
      obtain ⟨same, rfl⟩ := List.cons.inj split
      cases same
      exact behind
    | cons _ later => exact timely.behind later other earlier (List.cons.inj split).2
  · have ordered := timely.ordered
    simp only [List.filterMap_cons, Event.handed?, List.map_cons, row]
    rw [List.pairwise_cons] at ordered ⊢
    refine ⟨?_, timely.ordered⟩
    simpa using ordered.1

end Timely

private theorem Tally.settled {before e : Engine} {plan : Job} {first reach row : Nat}
    {moves : List Move} {new : List Event} {p : Point}
    (tally : Tally before plan first moves new p e reach) (passed : row ≤ reach)
    (flying : ∀ current ∈ p.inFlight e, row ≤ current) :
    ∀ r ∈ plan.dueRows first row, ∃ reply, .replied r reply ∈ new := by
  intro r due
  obtain ⟨low, high, email⟩ := Job.mem_dueRows.mp due
  have called : r ∈ (new.filterMap Event.call?).map Prod.fst := by
    have listed : r ∈ plan.dueRows first reach := Job.mem_dueRows.mpr ⟨low, by omega, email⟩
    rw [← tally.rows, List.map_reverse, List.mem_reverse] at listed
    exact listed
  rw [← tally.ends, List.mem_append] at called
  obtain current | ended := called
  · have := flying r current
    omega
  · obtain ⟨⟨_, reply⟩, found, rfl⟩ := List.mem_map.mp ended
    obtain ⟨event, here, shown⟩ := List.mem_filterMap.mp found
    cases event <;> simp [Event.reply?] at shown
    obtain ⟨rfl, rfl⟩ := shown
    exact ⟨_, here⟩

private theorem Placed.flying {before e : Engine} {plan : Job} {first : Nat} {p : Point}
    (placed : Placed before plan first p e) : ∀ current ∈ p.inFlight e, e.state.row ≤ current := by
  have fits := placed.fits
  intro current here
  cases p with
  | batch => simp [Point.inFlight] at here
  | row next stop => simp [Point.inFlight] at here
  | stage => cases stage : e.stage <;> simp_all [Point.inFlight, Point.Fits]

private theorem Behind.mono {plan : Job} {first : Nat} {c : Checkpoint} {earlier more : List Event}
    (behind : Behind plan first c earlier) (part : earlier ⊆ more) : Behind plan first c more :=
  ⟨behind.low, behind.high, fun row due => (behind.ended row due).imp fun _ here => part here⟩

namespace Course
variable {before e : Engine} {plan : Job} {first : Nat} {moves : List Move} {new : List Event}
  {p : Point}

private theorem behind (course : Course before plan first moves new p e) (savedAt : Int) :
    Behind plan first (plan.progress e.state savedAt) new := by
  obtain ⟨reach, tally⟩ := course.tallied
  have placed := course.placed
  have within := placed.within tally.reaches
  refine ⟨by simpa using placed.low, by simpa using placed.high, ?_⟩
  refine tally.settled ?_ fun current here => ?_
  · simp
    omega
  · have := placed.flying current here
    simp
    omega

private theorem timely_save (course : Course before plan first moves new p e)
    (timely : Timely plan first new e) : Timely plan first (e.handover ++ new) e := by
  rw [handover_eq course.placed.job]
  exact timely.hand (course.behind 0) (by simp)

theorem timely (course : Course before plan first moves new p e) : Timely plan first new e := by
  induction course with
  | begun begun => exact ⟨by simp, by simp⟩
  | opened stop course left going ends batch counted ih => exact ih.carry (by simp)
  | finished course ending ih => exact ih.carry (by simp)
  | held course inside paused ih => exact ih.carry (by simp)
  | stopped course inside cancelling ih => exact ih.carry (by simp)
  | raised course inside unpaused going read ih => exact (course.timely_save ih).carry (by simp)
  | skipped course inside unpaused going read blank ih => exact ih.carry (by simp)
  | submitted course inside unpaused going read due ih =>
    exact (ih.cons (by simp [Event.handed?])).carry (by simp)
  | @closed _ marks e row stop course outside ih =>
    let closed := { e with state := { e.state with row := (stop : Int) } }
    have passed : e.state.row ≤ closed.state.row ∧ closed.state.row ≤ plan.file.totalRows := by
      obtain ⟨_, _, _, _, _, _, begun, ended, within⟩ := course.placed
      simp only [closed]
      omega
    have behind : Behind plan first (plan.progress closed.state 0) marks := by
      obtain ⟨reach, tally⟩ := course.tallied
      have here : reach = row := tally.reaches
      refine ⟨?_, passed.2, tally.settled ?_ (by simp [Point.inFlight])⟩
      · exact Int.le_trans course.placed.low passed.1
      · simp [closed]
        omega
    have handed := (ih.carry passed.1).hand behind (by simp)
    rw [handover_eq (e := closed) course.placed.job]
    exact handed.carry (by simp [closed])
  | accepted course called ih =>
    exact (ih.cons (by simp [Event.handed?])).carry (by simp [accepted_fields called])
  | rejected course called failure ih =>
    exact (ih.cons (by simp [Event.handed?])).carry
      (by simp [rejected_fields called, RunState.reject])
  | @cutOff _ _ e row stop contact course called move cut ih =>
    rw [handover_eq course.placed.job]
    have behind := (course.behind 0).mono (List.subset_cons_self (.replied row .interrupted) _)
    exact ((ih.cons (by simp [Event.handed?])).hand behind (by simp)).carry (by simp)
  | interrupted course waiting ih => exact (course.timely_save ih).carry (by simp)
  | returned course noticed ih => exact ih
  | yielded course noticed ih => exact ih.carry (by simp)
  | crashed course noticed failure ih => exact (course.timely_save ih).carry (by simp)
  | ended course noticed failure? outcome ih => exact ih.carry (by simp)
  | continued course waiting ih => exact ih
  | released course waiting signal ih => exact ih
  | operated course action ih =>
    unfold operatorMarks
    split_ifs with changes
    · exact (course.timely_save ih).carry (by simp)
    · exact ih.carry (by simp)
  | saved course ih => exact (course.timely_save ih).carry (by simp)
  | ticked course now shown ih => exact ih.carry (by simp)

end Course

theorem handed_isMark (event : Event) (handed : event.handed?.isSome) :
    event.isMark := by
  cases event <;> simp_all [Event.handed?, Event.isMark]

/-- The progress that a run hands over is between its first row and the end of the file, behind the
deliveries that have ended, and never goes back. If none of it is lost, the progress of a run that
was cancelled or has failed is stored with its last row, its mapping and its lists. -/
theorem start_progress (before : Engine) (job : Job) (row : Int) {mapping : Mapping}
    {dropped : List Text} (idle : before.state.status.isActive = false)
    (valid : job.mapping.validate job.file.headers = .ok (mapping, dropped)) {moves : List Move}
    {e : Engine} (reached : Moves (before.start job row).2 moves e) :
    let first := resumeRow job.file row
    (∀ earlier c later, before.since e = earlier ++ .handed c :: later →
      (first : Int) ≤ c.row ∧ c.row ≤ (job.file.totalRows : Int) ∧
        ∀ due ∈ (planOf job mapping).dueRows first c.row.toNat, ∃ reply,
          .replied due reply ∈ earlier) ∧
      ((before.handedSince e).map (·.row)).Pairwise (· ≤ ·) ∧
      ((∀ event ∈ before.since e, event.isLoss = false) →
        e.state.status = .cancelled ∨ e.state.status = .failed →
        ∃ c : Checkpoint, e.store.Holds before.workspace job.file.name c ∧
          c.row = e.state.row ∧ c.mapping = mapping ∧ c.lists = Entries.distinct job.lists) := by
  obtain ⟨e₀, begun, started⟩ := start_valid before job row idle valid
  rw [started] at reached
  obtain ⟨new, course⟩ := Course.of_moves begun reached
  obtain ⟨happened, journal, marked, since⟩ := course.happened
  refine ⟨?_, ?_, ?_⟩
  · intro earlier c later split
    have split : happened = later.reverse ++ .handed c :: earlier.reverse := by
      rw [← List.reverse_reverse happened, ← since, split]
      simp
    obtain ⟨low, high, ended⟩ := course.timely.behind (marks later.reverse) c
      (marks earlier.reverse) (by simp [← marked, split, Event.isMark])
    refine ⟨low, high, fun due here => (ended due here).imp fun reply replied => ?_⟩
    simpa using (List.mem_filter.mp replied).1
  · have handed : before.handedSince e = (new.filterMap Event.handed?).reverse :=
      course.filterMap_since handed_isMark
    rw [handed, List.map_reverse, List.pairwise_reverse]
    exact (List.pairwise_cons.mp course.timely.ordered).2
  · intro lossless stopped
    obtain ⟨c, held, _, at_row, _, mapped, listed, _⟩ := course.kept (course.lossless lossless)
      (by obtain same | same := stopped <;> simp [same])
    exact ⟨c, by simpa [course.placed.workspace, planOf] using held, at_row, mapped, listed⟩

/-- A run of the sample that is cancelled during its first delivery leaves its progress at the first
row. -/
theorem start_progress_sample :
    ∃ moves e, Moves (sample.start sampleJob 0).2 moves e ∧ e.state.status = .cancelled ∧
      ∃ c : Checkpoint, e.store.Holds sample.workspace sampleJob.file.name c ∧ c.row = 0 := by
  let moves : List Move := [.operate .cancel, .answer .accepted, .acknowledge none, .acknowledge none]
  have ended : ((sample.start sampleJob 0).2.after? moves).map (fun e =>
      (e.state.status, e.state.row, (sample.since e).all fun event => !event.isLoss))
      = some (.cancelled, 0, true) := by
    decide +kernel
  obtain ⟨e, reached, shown⟩ := Option.map_eq_some_iff.mp ended
  simp only [Prod.mk.injEq, List.all_eq_true, Bool.not_eq_true'] at shown
  obtain ⟨cancelled, row, lossless⟩ := shown
  have run := reaches_iff.mpr reached
  obtain ⟨c, held, at_row, _⟩ := (start_progress sample sampleJob 0 rfl sampleJob_valid run).2.2
    lossless (.inl cancelled)
  exact ⟨moves, e, run, cancelled, c, held, at_row.trans row⟩

end Engine
end Intake
