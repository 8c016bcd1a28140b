import Intake.Proofs.Run.Restraint

/-! A run goes on regardless of its storage. An engine hands its progress to its store and never
looks at the answer; so two engines that differ in their stores, and in what those answered, are
still alike after each move. -/
namespace Intake

def Event.isStored : Event → Bool
  | stored _ => true
  | _ => false

namespace Engine

def visible (events : List Event) : List Event := events.filter (!·.isStored)

theorem visible_append (first second : List Event) :
    visible (first ++ second) = visible first ++ visible second := List.filter_append ..

theorem visible_reverse (events : List Event) : visible events.reverse = (visible events).reverse :=
  List.filter_reverse ..

theorem filterMap_visible (events : List Event) :
    (visible events).filterMap Event.call? = events.filterMap Event.call? := by
  rw [visible, List.filterMap_filter]
  congr 1
  funext event
  cases event <;> rfl

theorem visible_save (e : Engine) : visible e.save.journal = e.handover ++ visible e.journal := by
  unfold save saveProgress handover
  cases e.snapshot? with
  | none => rfl
  | some checkpoint => simp [visible, Event.isStored]

structure Alike (a b : Engine) : Prop where
  workspace : b.workspace = a.workspace
  batchSize : b.batchSize = a.batchSize
  job : b.job? = a.job?
  state : b.state = a.state
  released : b.released = a.released
  stage : b.stage = a.stage
  journal : visible b.journal = visible a.journal
  now : b.now = a.now

theorem alike_of_store (e : Engine) (store : ProgressStore) : Alike e { e with store } :=
  ⟨rfl, rfl, rfl, rfl, rfl, rfl, rfl, rfl⟩

namespace Alike
variable {a b : Engine}

theorem exists_eq (alike : Alike a b) : ∃ store journal, b = { a with store, journal } := by
  obtain ⟨workspace, batchSize, _, store, job?, state, released, stage, journal, now⟩ := b
  obtain ⟨rfl, rfl, rfl, rfl, rfl, rfl, _, rfl⟩ := alike
  exact ⟨store, journal, rfl⟩

theorem contactAt (alike : Alike a b) (row : Nat) : b.contactAt row = a.contactAt row := by
  simp only [Engine.contactAt, alike.job, alike.now]

theorem fileName (alike : Alike a b) : b.fileName = a.fileName := by
  simp only [Engine.fileName, alike.job]

theorem deliveryOf (alike : Alike a b) (contact : Contact) :
    b.deliveryOf contact = a.deliveryOf contact := by
  simp only [Engine.deliveryOf, alike.workspace, alike.job]

theorem admits (alike : Alike a b) (move : Move) : b.admits move = a.admits move := by
  cases move <;> simp only [Engine.admits, alike.stage, alike.released]

theorem withState (alike : Alike a b) (f : RunState → RunState) :
    Alike { a with state := f a.state } { b with state := f b.state } :=
  { alike with state := congrArg f alike.state }

theorem withReleased (alike : Alike a b) (released : Bool) :
    Alike { a with released } { b with released } :=
  { alike with released := rfl }

theorem withStage (alike : Alike a b) (stage : Stage) : Alike { a with stage } { b with stage } :=
  { alike with stage := rfl }

theorem note (alike : Alike a b) {event event' : Event} (same : event' = event) :
    Alike (a.note event) (b.note event') :=
  { alike with
    journal := by
      subst same
      exact (visible_append [_] b.journal).trans (alike.journal ▸ (visible_append [_] _).symm) }

theorem noteAll (alike : Alike a b) (events : List Event) :
    Alike (a.noteAll events) (b.noteAll events) :=
  { alike with
    journal := by
      simp only [Engine.noteAll, visible_append, alike.journal] }

/-- Whether progress was saved or lost shows in the answer of the store alone. -/
theorem save (alike : Alike a b) : Alike a.save b.save := by
  have handover : b.handover = a.handover := by
    simp only [Engine.handover, snapshot?, alike.job, alike.state]
  have journal : visible b.save.journal = visible a.save.journal := by
    rw [visible_save, visible_save, handover, alike.journal]
  obtain ⟨workspace, batchSize, job, state, released, stage, _, now⟩ := alike
  exact ⟨by simpa, by simpa, by simpa, by simpa, by simpa, by simpa, journal, by simpa⟩

theorem setStatus (alike : Alike a b) (status : Status) :
    Alike (a.setStatus status) (b.setStatus status) :=
  alike.withState fun state => { state with status }

theorem noteEntered (alike : Alike a b) :
    Alike (a.note (.entered a.fileName a.state)) (b.note (.entered b.fileName b.state)) :=
  alike.note (by rw [alike.fileName, alike.state])

theorem enter (alike : Alike a b) (status : Status) : Alike (a.enter status) (b.enter status) :=
  (alike.setStatus status).noteEntered

theorem notify (alike : Alike a b) : Alike a.notify b.notify := alike.note (by rw [alike.state])

theorem ignore (alike : Alike a b) (action : Action) :
    (b.ignore action).1 = (a.ignore action).1 ∧ Alike (a.ignore action).2 (b.ignore action).2 :=
  ⟨rfl, alike.note (by rw [alike.state])⟩

/-- Operators are answered alike. -/
theorem operate (alike : Alike a b) (action : Action) :
    (b.operate action).1 = (a.operate action).1 ∧
      Alike (a.operate action).2 (b.operate action).2 := by
  cases action with
  | pause =>
    unfold Engine.operate pause
    rw [alike.state]
    split_ifs
    · have paused := ((alike.setStatus .paused).withReleased false).save
      exact ⟨rfl, paused.noteEntered.notify⟩
    · exact alike.ignore .pause
  | resume =>
    unfold Engine.operate resume
    by_cases paused : a.state.status = .paused
    · rw [if_pos paused, if_pos (alike.state ▸ paused)]
      have running := (alike.withReleased true).enter .running
      exact ⟨rfl, running.notify⟩
    · rw [if_neg paused, if_neg (alike.state ▸ paused)]
      exact alike.ignore .resume
  | cancel =>
    unfold Engine.operate cancel
    rw [alike.state]
    split_ifs
    · have cancelling := (alike.save.withReleased true).enter .cancelling
      exact ⟨rfl, cancelling.notify⟩
    · exact alike.ignore .cancel

theorem conclude (alike : Alike a b) : Alike a.conclude b.conclude :=
  ((alike.withReleased true).withStage .finalNotice).notify

theorem finish (alike : Alike a b) : Alike a.finish b.finish := by
  unfold Engine.finish
  rw [alike.state]
  exact (alike.enter _).conclude

theorem fail (alike : Alike a b) (failure : Failure) : Alike (a.fail failure) (b.fail failure) := by
  have failed := alike.withState fun state => { state with fatal := some failure.text }
  exact (failed.enter .failed).save.conclude

theorem interrupted (alike : Alike a b) : Alike a.interrupted b.interrupted := by
  have ended := ((alike.save.setStatus .cancelled).withReleased true).withStage
    (.ended .interrupted)
  refine Alike.note (ended.note ?_) rfl
  rw [ended.fileName, ended.state]

theorem submit (alike : Alike a b) (row stop : Nat) (contact : Contact) :
    Alike (a.submit row stop contact) (b.submit row stop contact) := by
  refine (alike.withStage (.call row stop contact)).note ?_
  rw [alike.deliveryOf]

theorem closeBatch (alike : Alike a b) (stop : Nat) :
    Alike (a.closeBatch stop) (b.closeBatch stop) := by
  have closed := alike.withState fun state => { state with row := stop }
  exact (closed.save.withStage .batchNotice).notify

theorem walk (alike : Alike a b) (row stop : Nat) : Alike (a.walk row stop) (b.walk row stop) := by
  fun_induction Engine.walk a row stop generalizing b with
  | case1 a row inside paused =>
    rw [Engine.walk.eq_1 b, if_pos inside, if_pos (alike.state ▸ paused)]
    exact alike.withStage _
  | case2 a row inside unpaused cancelling =>
    rw [Engine.walk.eq_1 b, if_pos inside, if_neg (alike.state ▸ unpaused),
      if_pos (alike.state ▸ cancelling)]
    exact alike.finish
  | case3 a row inside unpaused going discards noted error =>
    rename_i read
    rw [Engine.walk.eq_1 b, if_pos inside, if_neg (alike.state ▸ unpaused),
      if_neg (alike.state ▸ going), alike.contactAt, read]
    exact (alike.noteAll _).fail _
  | case4 a row inside unpaused going discards noted contact due =>
    rename_i read
    rw [Engine.walk.eq_1 b, if_pos inside, if_neg (alike.state ▸ unpaused),
      if_neg (alike.state ▸ going), alike.contactAt, read]
    simp only [due, if_true]
    exact (alike.noteAll _).submit _ _ _
  | case5 a row inside unpaused going discards noted contact blank read =>
    rename_i ih
    rw [Engine.walk.eq_1 b, if_pos inside, if_neg (alike.state ▸ unpaused),
      if_neg (alike.state ▸ going), alike.contactAt, read]
    simp only [blank]
    exact ih (alike.noteAll _)
  | case6 a row outside =>
    rw [Engine.walk.eq_1 b, if_neg outside]
    exact alike.closeBatch stop

theorem nextBatch (alike : Alike a b) : Alike a.nextBatch b.nextBatch := by
  obtain ⟨store, journal, rfl⟩ := alike.exists_eq
  unfold Engine.nextBatch
  by_cases left : a.state.row < a.state.totalRows ∧ a.state.status ≠ .cancelling
  · rw [if_pos left, if_pos left]
    have counted := alike.withState fun state =>
      { state with batch := (a.state.row.toNat / a.batchSize + 1 : Nat) }
    exact (counted.note rfl).walk _ _
  · rw [if_neg left, if_neg left]
    exact alike.finish

theorem answer (alike : Alike a b) (reply : Reply) : Alike (a.answer reply) (b.answer reply) := by
  unfold Engine.answer
  rw [alike.stage]
  cases stage : a.stage with
  | call row stop contact =>
    have replied := alike.note (rfl : Event.replied row reply = _)
    cases reply with
    | accepted =>
      have counted := replied.withState fun state => { state with success := state.success + 1 }
      exact (counted.withStage _).notify
    | rejected failure =>
      have rejected := replied.note (rfl : Event.rejected (entryOf row contact failure) = _)
      have counted := rejected.withState fun state => state.reject (entryOf row contact failure)
      exact (counted.withStage _).notify
    | interrupted => exact replied.interrupted
  | _ => exact alike

theorem acknowledge (alike : Alike a b) (failure? : Option Failure) :
    Alike (a.acknowledge failure?) (b.acknowledge failure?) := by
  unfold Engine.acknowledge
  rw [alike.stage]
  cases a.stage <;> cases failure?
  case rowNotice.none => exact alike.walk _ _
  case batchNotice.none => exact alike.withStage _
  case rowNotice.some | batchNotice.some => exact alike.fail _
  case finalNotice.none | finalNotice.some => exact (alike.withStage _).note rfl
  all_goals exact alike

theorem proceed (alike : Alike a b) : Alike a.proceed b.proceed := by
  unfold Engine.proceed
  rw [alike.stage]
  cases a.stage with
  | turn => exact alike.nextBatch
  | release row stop =>
    simp only [alike.released]
    split_ifs
    · exact alike.walk row stop
    · exact alike
  | _ => exact alike

theorem interrupt (alike : Alike a b) : Alike a.interrupt b.interrupt := by
  unfold Engine.interrupt
  rw [alike.stage]
  cases a.stage with
  | call row => exact (alike.note rfl).interrupted
  | turn | release => exact alike.interrupted
  | _ => exact alike

theorem move (alike : Alike a b) (move : Move) : Alike (a.move move) (b.move move) := by
  cases move with
  | answer reply => exact alike.answer reply
  | acknowledge failure? => exact alike.acknowledge failure?
  | proceed => exact alike.proceed
  | interrupt => exact alike.interrupt
  | operate action => exact (alike.operate action).2
  | save => exact alike.save
  | tick now => exact { alike with now := rfl }

/-- By the moves that one of two engines waits for, the other goes along with it. -/
theorem moves {moves : List Move} {a' : Engine} (alike : Alike a b) (reached : Moves a moves a') :
    ∃ b', Moves b moves b' ∧ Alike a' b' := by
  induction reached with
  | none => exact ⟨b, .none, alike⟩
  | next move _ admitted ih =>
    obtain ⟨b', run, along⟩ := ih
    exact ⟨b'.move move, run.next move (along.admits move ▸ admitted), along.move move⟩

theorem begin (alike : Alike a b) (job : Job) (row : Nat) :
    Alike (a.begin job row) (b.begin job row) := by
  have reset : b.reset job.file.totalRows row = a.reset job.file.totalRows row := by
    simp only [Engine.reset, alike.state, alike.batchSize]
  have begun : Alike
      { a with job? := some job, state := a.reset job.file.totalRows row, released := true }
      { b with job? := some job, state := b.reset job.file.totalRows row, released := true } :=
    { alike with job := rfl, state := reset, released := rfl }
  exact (begun.note (by rw [reset])).nextBatch

/-- An engine that is about to begin: it noted what it leaves out of its mapping, and a row to
resume from that it ignores. -/
theorem ready (alike : Alike a b) (dropped : List Text) (first : Nat) (row : Int) :
    let reduce (e : Engine) := if dropped.isEmpty then e else e.note (.mappingReduced dropped)
    let ready (e : Engine) :=
      if (first : Int) = row then reduce e else (reduce e).note (.resumeRowIgnored row)
    Alike (ready a) (ready b) := by
  intro reduce ready
  have reduced : Alike (reduce a) (reduce b) := by
    simp only [reduce]
    split_ifs
    · exact alike
    · exact alike.note rfl
  simp only [ready]
  split_ifs
  · exact reduced
  · exact reduced.note rfl

theorem start (alike : Alike a b) (job : Job) (row : Int) :
    (b.start job row).1 = (a.start job row).1 ∧ Alike (a.start job row).2 (b.start job row).2 := by
  have settled : Alike (if a.state.status.isTerminal then a.setStatus .idle else a)
      (if b.state.status.isTerminal then b.setStatus .idle else b) := by
    rw [alike.state]
    split_ifs
    · exact alike.setStatus .idle
    · exact alike
  unfold Engine.start
  by_cases active : a.state.status.isActive
  · rw [if_pos active, if_pos (alike.state ▸ active)]
    exact ⟨rfl, alike⟩
  · rw [if_neg active, if_neg (alike.state ▸ active)]
    cases job.mapping.validate job.file.headers with
    | error error => exact ⟨rfl, settled⟩
    | ok result => exact ⟨rfl, (settled.ready result.2 _ row).begin _ _⟩

end Alike

/-- A run goes the same way with any two stores, whichever calls of their storages are refused: it
is started or not, calls for the same deliveries, does and notes the same apart from the answers of
the store, answers its operators alike, and stands at the same stage with the same state after the
same moves. -/
theorem start_regardless_of_storage (before : Engine) (store : ProgressStore) (job : Job)
    (row : Int) :
    let other := { before with store }
    (other.start job row).1 = (before.start job row).1 ∧
      ∀ moves e, Moves (before.start job row).2 moves e →
        ∃ e', Moves (other.start job row).2 moves e' ∧
          other.callsSince e' = before.callsSince e ∧
          visible (other.since e') = visible (before.since e) ∧
          e'.state = e.state ∧ e'.stage = e.stage ∧
          ∀ action, (e'.operate action).1 = (e.operate action).1 := by
  intro other
  obtain ⟨outcome, started⟩ := (before.alike_of_store store).start job row
  refine ⟨outcome, fun moves e reached => ?_⟩
  obtain ⟨e', run, alike⟩ := started.moves reached
  have same : visible (other.since e') = visible (before.since e) := by
    obtain ⟨happened, grown⟩ := (journal_start before job row).trans (journal_moves reached)
    obtain ⟨happened', grown'⟩ := (journal_start other job row).trans (journal_moves run)
    have journal := alike.journal
    rw [← grown, ← grown', visible_append, visible_append] at journal
    have happenings := List.append_cancel_right journal
    rw [since_of_append grown'.symm, since_of_append grown.symm, visible_reverse, visible_reverse,
      happenings]
  refine ⟨e', run, ?_, same, alike.state, alike.stage, fun action => (alike.operate action).1⟩
  rw [callsSince, callsSince, ← filterMap_visible, same, filterMap_visible]

def refusing : ProgressStore :=
  { sample.store with storage.refuses := fun _ _ => some "disk full" }

/-- A run of the sample that is paused for a while is completed whether its storage takes its
progress or refuses it. -/
theorem start_regardless_of_storage_sample :
    let refused := { sample with store := refusing }
    ∃ moves e e', Moves (sample.start sampleJob 0).2 moves e ∧
      Moves (refused.start sampleJob 0).2 moves e' ∧
      (sample.since e).countP Event.isLoss = 0 ∧ (refused.since e').countP Event.isLoss = 2 ∧
      e.state.status = .completed ∧ e'.state.status = .completed := by
  intro refused
  let moves : List Move := [.answer .accepted, .operate .pause, .acknowledge none,
    .operate .resume, .proceed, .acknowledge none, .proceed]
  have saved : ((sample.start sampleJob 0).2.after? moves).map (fun e =>
      ((sample.since e).countP Event.isLoss, e.state.status)) = some (0, .completed) := by
    decide +kernel
  have lost : ((refused.start sampleJob 0).2.after? moves).map (fun e =>
      (refused.since e).countP Event.isLoss) = some 2 := by
    decide +kernel
  obtain ⟨e, reached, shown⟩ := Option.map_eq_some_iff.mp saved
  obtain ⟨e', run, _, _, state, _⟩ :=
    (start_regardless_of_storage sample refusing sampleJob 0).2 moves e (reaches_iff.mpr reached)
  rw [show (refused.start sampleJob 0).2.after? moves = some e' from reaches_iff.mp run] at lost
  obtain ⟨none, completed⟩ := Prod.mk.inj shown
  exact ⟨moves, e, e', reaches_iff.mpr reached, run, none, Option.some.inj lost, completed,
    state ▸ completed⟩

end Engine
end Intake
