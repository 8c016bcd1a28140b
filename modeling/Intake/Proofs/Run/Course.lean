import Intake.Proofs.Run.Moves

/-! The course of a run in small steps. A batch is opened, its rows are begun one after the other,
and the batch is closed; between two such steps the engine waits at a stage. Every state that a run
reaches by moves of its surroundings lies on such a course, so that what each small step preserves
holds throughout the run. -/
namespace Intake

inductive Point
  | batch
  | row (row stop : Nat)
  | stage

namespace Engine

structure Begun (before : Engine) (plan : Job) (first : Nat) (e : Engine) : Prop where
  workspace : e.workspace = before.workspace
  store : e.store = before.store
  job : e.job? = some plan
  state : e.state = before.reset plan.file.totalRows first
  released : e.released = true
  kept : before.journal <:+ e.journal
  marks : marks e.journal = marks before.journal
  keepings : keepings e.journal = keepings before.journal
  statuses : e.journal.filterMap Event.status?
    = .running :: before.journal.filterMap Event.status?
  first_le : first ≤ plan.file.totalRows
  batchSize : e.batchSize = before.batchSize
  now : e.now = before.now

inductive Course (before : Engine) (plan : Job) (first : Nat) :
    List Move → List Event → Point → Engine → Prop
  | begun {e : Engine} (begun : Begun before plan first e) : Course before plan first [] [] .batch e
  | opened {moves : List Move} {marks : List Event} {e : Engine} (stop : Nat)
      (course : Course before plan first moves marks .batch e)
      (left : e.state.row < e.state.totalRows) (going : e.state.status ≠ .cancelling)
      (ends : stop = min (e.state.row.toNat + e.batchSize) e.state.totalRows.toNat) (batch : Int)
      (counted : batch = (e.state.row.toNat / e.batchSize + 1 : Nat)) :
      Course before plan first moves marks (.row e.state.row.toNat stop)
        ({ e with state := { e.state with batch } }.note
          (.batchBegun { e.state with batch } stop))
  | finished {moves : List Move} {marks : List Event} {e : Engine}
      (course : Course before plan first moves marks .batch e)
      (ending : ¬ (e.state.row < e.state.totalRows ∧ e.state.status ≠ .cancelling)) :
      Course before plan first moves marks .stage e.finish
  | held {moves : List Move} {marks : List Event} {e : Engine} {row stop : Nat}
      (course : Course before plan first moves marks (.row row stop) e) (inside : row < stop)
      (paused : e.state.status = .paused) :
      Course before plan first moves marks .stage { e with stage := .release row stop }
  | stopped {moves : List Move} {marks : List Event} {e : Engine} {row stop : Nat}
      (course : Course before plan first moves marks (.row row stop) e) (inside : row < stop)
      (cancelling : e.state.status = .cancelling) :
      Course before plan first moves marks .stage e.finish
  | raised {moves : List Move} {marks : List Event} {e : Engine} {row stop : Nat}
      {discards : List Discard} {error : OversizedInteger}
      (course : Course before plan first moves marks (.row row stop) e) (inside : row < stop)
      (unpaused : e.state.status ≠ .paused) (going : e.state.status ≠ .cancelling)
      (read : e.contactAt row = (discards, .error error)) :
      Course before plan first moves (e.handover ++ marks) .stage
        ((e.noteAll (discards.map .discarded)).fail ⟨"ValueError", error.message⟩)
  | skipped {moves : List Move} {marks : List Event} {e : Engine} {row stop : Nat}
      {discards : List Discard} {contact : Contact}
      (course : Course before plan first moves marks (.row row stop) e) (inside : row < stop)
      (unpaused : e.state.status ≠ .paused) (going : e.state.status ≠ .cancelling)
      (read : e.contactAt row = (discards, .ok contact)) (blank : contact.email? = none) :
      Course before plan first moves marks (.row (row + 1) stop)
        (e.noteAll (discards.map .discarded))
  | submitted {moves : List Move} {marks : List Event} {e : Engine} {row stop : Nat}
      {discards : List Discard} {contact : Contact}
      (course : Course before plan first moves marks (.row row stop) e) (inside : row < stop)
      (unpaused : e.state.status ≠ .paused) (going : e.state.status ≠ .cancelling)
      (read : e.contactAt row = (discards, .ok contact)) (due : contact.email?.isSome) :
      Course before plan first moves (.submitted row (e.deliveryOf contact) :: marks) .stage
        ((e.noteAll (discards.map .discarded)).submit row stop contact)
  | closed {moves : List Move} {marks : List Event} {e : Engine} {row stop : Nat}
      (course : Course before plan first moves marks (.row row stop) e) (outside : ¬ row < stop) :
      Course before plan first moves
        (handover { e with state := { e.state with row := stop } } ++ marks) .stage
        (e.closeBatch stop)
  | accepted {moves : List Move} {marks : List Event} {e : Engine} {row stop : Nat}
      {contact : Contact} (course : Course before plan first moves marks .stage e)
      (called : e.stage = .call row stop contact) :
      Course before plan first (moves ++ [.answer .accepted]) (.replied row .accepted :: marks)
        .stage (e.answer .accepted)
  | rejected {moves : List Move} {marks : List Event} {e : Engine} {row stop : Nat}
      {contact : Contact} (course : Course before plan first moves marks .stage e)
      (called : e.stage = .call row stop contact) (failure : Failure) :
      Course before plan first (moves ++ [.answer (.rejected failure)])
        (.replied row (.rejected failure) :: marks) .stage (e.answer (.rejected failure))
  | cutOff {moves : List Move} {marks : List Event} {e : Engine} {row stop : Nat}
      {contact : Contact} (course : Course before plan first moves marks .stage e)
      (called : e.stage = .call row stop contact) (move : Move)
      (cut : move = .answer .interrupted ∨ move = .interrupt) :
      Course before plan first (moves ++ [move])
        (e.handover ++ .replied row .interrupted :: marks) .stage
        (e.note (.replied row .interrupted)).interrupted
  | interrupted {moves : List Move} {marks : List Event} {e : Engine}
      (course : Course before plan first moves marks .stage e)
      (waiting : e.stage = .turn ∨ ∃ row stop, e.stage = .release row stop) :
      Course before plan first (moves ++ [.interrupt]) (e.handover ++ marks) .stage e.interrupted
  | returned {moves : List Move} {marks : List Event} {e : Engine} {row stop : Nat}
      (course : Course before plan first moves marks .stage e)
      (noticed : e.stage = .rowNotice row stop) :
      Course before plan first (moves ++ [.acknowledge none]) marks (.row (row + 1) stop) e
  | yielded {moves : List Move} {marks : List Event} {e : Engine}
      (course : Course before plan first moves marks .stage e) (noticed : e.stage = .batchNotice) :
      Course before plan first (moves ++ [.acknowledge none]) marks .stage { e with stage := .turn }
  | crashed {moves : List Move} {marks : List Event} {e : Engine}
      (course : Course before plan first moves marks .stage e)
      (noticed : e.stage = .batchNotice ∨ ∃ row stop, e.stage = .rowNotice row stop)
      (failure : Failure) :
      Course before plan first (moves ++ [.acknowledge (some failure)]) (e.handover ++ marks)
        .stage (e.fail failure)
  | ended {moves : List Move} {marks : List Event} {e : Engine}
      (course : Course before plan first moves marks .stage e) (noticed : e.stage = .finalNotice)
      (failure? : Option Failure) (outcome : Outcome) :
      Course before plan first (moves ++ [.acknowledge failure?]) marks .stage
        ({ e with stage := .ended outcome }.note (.ended outcome))
  | continued {moves : List Move} {marks : List Event} {e : Engine}
      (course : Course before plan first moves marks .stage e) (waiting : e.stage = .turn) :
      Course before plan first (moves ++ [.proceed]) marks .batch e
  | released {moves : List Move} {marks : List Event} {e : Engine} {row stop : Nat}
      (course : Course before plan first moves marks .stage e)
      (waiting : e.stage = .release row stop) (signal : e.released = true) :
      Course before plan first (moves ++ [.proceed]) marks (.row row stop) e
  | operated {moves : List Move} {marks : List Event} {e : Engine}
      (course : Course before plan first moves marks .stage e) (action : Action) :
      Course before plan first (moves ++ [.operate action]) (e.operatorMarks action ++ marks)
        .stage (e.operate action).2
  | saved {moves : List Move} {marks : List Event} {e : Engine}
      (course : Course before plan first moves marks .stage e) :
      Course before plan first (moves ++ [.save]) (e.handover ++ marks) .stage e.save
  | ticked {moves : List Move} {marks : List Event} {e : Engine}
      (course : Course before plan first moves marks .stage e) (now : Int)
      (shown : (Binary64.ofInt? now).isSome) :
      Course before plan first (moves ++ [.tick now]) marks .stage
        { e with store := { e.store with now }, now }

namespace Course
variable {before : Engine} {plan : Job} {first : Nat} {moves : List Move} {new : List Event}

/-- From a row on, the engine follows the course up to the next stage. -/
theorem of_walk (e : Engine) (row stop : Nat)
    (course : Course before plan first moves new (.row row stop) e) :
    ∃ new, Course before plan first moves new .stage (e.walk row stop) := by
  fun_induction walk e row stop generalizing new with
  | case1 e row inside paused => exact ⟨_, .held course inside paused⟩
  | case2 e row inside unpaused cancelling => exact ⟨_, .stopped course inside cancelling⟩
  | case3 e row inside unpaused going discards noted error =>
    rename_i read
    exact ⟨_, .raised course inside unpaused going read⟩
  | case4 e row inside unpaused going discards noted contact due =>
    rename_i read
    exact ⟨_, .submitted course inside unpaused going read due⟩
  | case5 e row inside unpaused going discards noted contact blank read =>
    rename_i ih
    exact ih (.skipped course inside unpaused going read (by simpa using blank))
  | case6 e row outside => exact ⟨_, .closed course outside⟩

theorem of_nextBatch (e : Engine) (course : Course before plan first moves new .batch e) :
    ∃ new, Course before plan first moves new .stage e.nextBatch := by
  unfold nextBatch
  by_cases left : e.state.row < e.state.totalRows ∧ e.state.status ≠ .cancelling
  · rw [if_pos left]
    exact of_walk _ _ _ (.opened _ course left.1 left.2 rfl _ rfl)
  · rw [if_neg left]
    exact ⟨_, .finished course left⟩

theorem of_move (e : Engine) (course : Course before plan first moves new .stage e) (move : Move)
    (admitted : e.admits move = true) :
    ∃ new, Course before plan first (moves ++ [move]) new .stage (e.move move) := by
  cases move with
  | answer reply =>
    cases stage : e.stage <;> simp [admits, stage] at admitted
    cases reply with
    | accepted => exact ⟨_, course.accepted stage⟩
    | rejected failure => exact ⟨_, course.rejected stage failure⟩
    | interrupted =>
      have cut := course.cutOff stage (.answer .interrupted) (.inl rfl)
      exact ⟨_, by simpa [Engine.move, answer, stage] using cut⟩
  | acknowledge failure? =>
    cases stage : e.stage <;> simp [admits, stage] at admitted <;> cases failure? with
      simp only [Engine.move, acknowledge, stage]
    | some failure => first
      | exact ⟨_, course.crashed (by simp [stage]) failure⟩
      | exact ⟨_, course.ended stage _ _⟩
    | none => first
      | exact of_walk _ _ _ (course.returned stage)
      | exact ⟨_, course.yielded stage⟩
      | exact ⟨_, course.ended stage _ _⟩
  | proceed =>
    cases stage : e.stage <;> simp [admits, stage] at admitted
    · simpa [Engine.move, proceed, stage] using of_nextBatch _ (course.continued stage)
    · simpa [Engine.move, proceed, stage, admitted] using
        of_walk _ _ _ (course.released stage admitted)
  | interrupt =>
    cases stage : e.stage <;> simp [admits, stage] at admitted
    · exact ⟨_, by simpa [Engine.move, interrupt, stage] using
        course.cutOff stage .interrupt (.inr rfl)⟩
    · exact ⟨_, by simpa [Engine.move, interrupt, stage] using
        course.interrupted (.inl stage)⟩
    · exact ⟨_, by simpa [Engine.move, interrupt, stage] using
        course.interrupted (.inr ⟨_, _, stage⟩)⟩
  | operate action => exact ⟨_, course.operated action⟩
  | save => exact ⟨_, course.saved⟩
  | tick now => exact ⟨_, course.ticked now admitted⟩

/-- Every state that a run reaches lies on a course. -/
theorem of_moves {e₀ e : Engine} (begun : Begun before plan first e₀)
    (reached : Moves e₀.nextBatch moves e) :
    ∃ new, Course before plan first moves new .stage e := by
  induction reached with
  | none => exact of_nextBatch _ (.begun begun)
  | next move _ admitted ih =>
    obtain ⟨new, course⟩ := ih
    exact of_move _ course move admitted

/-- The journal of a run goes on from the one before it, and the marks in it are those of its
course. -/
theorem marked {p : Point} {e : Engine} (course : Course before plan first moves new p e) :
    before.journal <:+ e.journal ∧ marks e.journal = new ++ marks before.journal := by
  have discards (found : List Discard) : marks (found.map .discarded).reverse = [] := by
    simp [marks, Event.isMark]
  induction course with
  | begun begun => exact ⟨begun.kept, begun.marks⟩
  | opened stop _ _ _ _ _ _ ih =>
    exact ⟨ih.1.trans (List.suffix_cons _ _), by simpa [Event.isMark] using ih.2⟩
  | @finished _ _ e _ _ ih => exact ⟨ih.1.trans (by simp), by simpa using ih.2⟩
  | held _ _ _ ih => exact ih
  | @stopped _ _ e _ _ _ _ _ ih => exact ⟨ih.1.trans (by simp), by simpa using ih.2⟩
  | @raised _ _ e _ _ found error _ _ _ _ _ ih =>
    obtain ⟨kept, same⟩ := ih
    let noted := e.noteAll (found.map .discarded)
    have noting : e.journal <:+ noted.journal := List.suffix_append _ _
    have failing : noted.journal <:+ (noted.fail ⟨"ValueError", error.message⟩).journal := by simp
    exact ⟨(kept.trans noting).trans failing, by simp [discards, same, handover, snapshot?]⟩
  | skipped _ _ _ _ _ _ ih =>
    exact ⟨ih.1.trans (List.suffix_append _ _), by simp [discards, ih.2]⟩
  | submitted _ _ _ _ _ _ ih =>
    refine ⟨(ih.1.trans (List.suffix_append _ _)).trans (List.suffix_cons _ _), ?_⟩
    simp [discards, ih.2, Event.isMark, deliveryOf]
  | @closed _ _ e _ stop _ _ ih => exact ⟨ih.1.trans (by simp), by simp [ih.2]⟩
  | accepted _ called ih =>
    exact ⟨ih.1.trans (by simp [accepted_fields called]), by simp [accepted_fields called, ih.2]⟩
  | rejected _ called failure ih =>
    exact ⟨ih.1.trans (by simp [rejected_fields called]), by simp [rejected_fields called, ih.2]⟩
  | @cutOff _ _ e row _ _ _ called move cut ih =>
    let noted := e.note (.replied row .interrupted)
    have ending : noted.journal <:+ noted.interrupted.journal := by simp
    refine ⟨(ih.1.trans (List.suffix_cons _ _)).trans ending, ?_⟩
    simp [ih.2, Event.isMark, handover, snapshot?]
  | interrupted _ _ ih => exact ⟨ih.1.trans (by simp), by simp [ih.2]⟩
  | returned _ _ ih => exact ih
  | yielded _ _ ih => exact ih
  | crashed _ _ failure ih => exact ⟨ih.1.trans (by simp), by simp [ih.2]⟩
  | ended _ _ _ outcome ih =>
    exact ⟨ih.1.trans (List.suffix_cons _ _), by simpa [Event.isMark] using ih.2⟩
  | continued _ _ ih => exact ih
  | released _ _ _ ih => exact ih
  | operated _ action ih => exact ⟨ih.1.trans (by simp), by simp [ih.2]⟩
  | saved _ ih => exact ⟨ih.1.trans (by simp), by simp [ih.2]⟩
  | ticked _ _ _ ih => exact ih

theorem happened {p : Point} {e : Engine} (course : Course before plan first moves new p e) :
    ∃ happened, e.journal = happened ++ before.journal ∧ marks happened = new ∧
      before.since e = happened.reverse := by
  obtain ⟨⟨happened, split⟩, same⟩ := course.marked
  rw [← split, marks_append, List.append_left_inj] at same
  exact ⟨happened, split.symm, same, since_of_append split.symm⟩

/-- What a run did since its start, as far as it leaves marks, is what its course says. -/
theorem filterMap_since {p : Point} {e : Engine} {α : Type} {view : Event → Option α}
    (course : Course before plan first moves new p e)
    (marked : ∀ event, (view event).isSome → event.isMark) :
    (before.since e).filterMap view = (new.filterMap view).reverse := by
  obtain ⟨happened, _, same, since⟩ := course.happened
  rw [since, ← same, filterMap_marks marked, List.filterMap_reverse]

end Course

theorem resumeRow_le (file : ContactFile) (row : Int) : resumeRow file row ≤ file.totalRows := by
  unfold resumeRow
  split <;> omega

def planOf (job : Job) (mapping : Mapping) : Job :=
  { job with mapping, lists := Entries.distinct job.lists }

/-- With a mapping that can be used, and no run going on, a run begins. It tells of the entries that
it leaves out and of a row that is not one of the file, and then that it starts. -/
theorem start_told (before : Engine) (job : Job) (row : Int) {mapping : Mapping}
    {dropped : List Text} (idle : before.state.status.isActive = false)
    (valid : job.mapping.validate job.file.headers = .ok (mapping, dropped)) :
    ∃ e₀, Begun before (planOf job mapping) (resumeRow job.file row) e₀ ∧
      e₀.journal
        = .started job.file.name (before.reset job.file.totalRows (resumeRow job.file row)) ::
          ((if (resumeRow job.file row : Int) = row then [] else [.resumeRowIgnored row]) ++
            ((if dropped.isEmpty then [] else [.mappingReduced dropped]) ++ before.journal)) ∧
      before.start job row = (.ok (), e₀.nextBatch) := by
  let settled := if before.state.status.isTerminal then before.setStatus .idle else before
  let reduced := if dropped.isEmpty then settled else settled.note (.mappingReduced dropped)
  let ready := if (resumeRow job.file row : Int) = row then reduced
    else reduced.note (.resumeRowIgnored row)
  have same : ready.workspace = before.workspace ∧ ready.batchSize = before.batchSize ∧
      ready.store = before.store ∧ ready.now = before.now ∧
      ready.reset job.file.totalRows (resumeRow job.file row)
        = before.reset job.file.totalRows (resumeRow job.file row) ∧
      ready.journal
        = (if (resumeRow job.file row : Int) = row then [] else [.resumeRowIgnored row]) ++
          ((if dropped.isEmpty then [] else [.mappingReduced dropped]) ++ before.journal) := by
    simp only [ready, reduced, settled]
    split_ifs <;> exact ⟨rfl, rfl, rfl, rfl, rfl, rfl⟩
  obtain ⟨workspace, batchSize, store, now, state, journal⟩ := same
  let given := { ready with
    job? := some (planOf job mapping)
    state := ready.reset job.file.totalRows (resumeRow job.file row)
    released := true }
  refine ⟨given.note (.started job.file.name given.state), ?_, ?_, ?_⟩
  · have kept : before.journal <:+ ready.journal := by
      rw [journal, ← List.append_assoc]
      exact List.suffix_append _ _
    refine { workspace, batchSize, store, now, state, job := rfl, released := rfl,
             first_le := resumeRow_le _ _, kept := kept.trans (List.suffix_cons _ _),
             marks := ?_, keepings := ?_, statuses := ?_ } <;>
      simp only [note_fields, given, journal] <;> split_ifs <;>
      simp [Event.isMark, Event.isKeeping, Event.status?, reset, List.filterMap_cons]
  · simp only [note_fields, given, state, journal]
  · simp only [start, idle, valid]
    rfl

theorem start_valid (before : Engine) (job : Job) (row : Int) {mapping : Mapping}
    {dropped : List Text} (idle : before.state.status.isActive = false)
    (valid : job.mapping.validate job.file.headers = .ok (mapping, dropped)) :
    ∃ e₀, Begun before (planOf job mapping) (resumeRow job.file row) e₀ ∧
      before.start job row = (.ok (), e₀.nextBatch) := by
  obtain ⟨e₀, begun, _, started⟩ := start_told before job row idle valid
  exact ⟨e₀, begun, started⟩

theorem idle_of_start {before e : Engine} {job : Job} {row : Int}
    (started : before.start job row = (.ok (), e)) : before.state.status.isActive = false := by
  cases active : before.state.status.isActive with
  | false => rfl
  | true => simp [start, active] at started

theorem valid_of_start {before e : Engine} {job : Job} {row : Int}
    (started : before.start job row = (.ok (), e)) :
    ∃ mapping dropped, job.mapping.validate job.file.headers = .ok (mapping, dropped) := by
  unfold start at started
  cases validated : job.mapping.validate job.file.headers with
  | ok result => exact ⟨result.1, result.2, rfl⟩
  | error error =>
    simp only [validated] at started
    split at started <;> cases started

end Engine
end Intake
