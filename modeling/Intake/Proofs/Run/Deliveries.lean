import Intake.Calendar.Reader
import Intake.Proofs.Run.Position

/-! The deliveries of a run. A run delivers the due rows of its file from its first row on, each of
them once and in their order, up to the row where it stands; what it counts are their ends. -/
namespace Intake

def Move.isRejection : Move → Bool
  | answer (.rejected _) => true
  | _ => false

namespace Point

def Reaches (plan : Job) (e : Engine) (p : Point) (reach : Nat) : Prop :=
  match p with
  | batch => e.state.row = reach
  | row next _ => reach = next
  | stage =>
    match e.stage with
    | .idle => False
    | .call current .. | .rowNotice current _ => reach = current + 1
    | .release current _ => reach = current
    | .batchNotice | .turn => e.state.row = reach
    | .finalNotice | .ended _ =>
      e.state.row ≤ reach ∧ reach ≤ plan.file.totalRows ∧
        (e.state.status = .completed → reach = plan.file.totalRows)

def inFlight (e : Engine) : Point → List Nat
  | batch | row .. => []
  | stage =>
    match e.stage with
    | .call current .. => [current]
    | _ => []

end Point

namespace Engine

theorem Placed.within {before e : Engine} {plan : Job} {first reach : Nat} {p : Point}
    (placed : Placed before plan first p e) (reaches : p.Reaches plan e reach) :
    e.state.row ≤ reach ∧ reach ≤ plan.file.totalRows := by
  obtain ⟨_, _, _, _, high, fits⟩ := placed
  cases p with
  | batch =>
    simp only [Point.Reaches] at reaches
    omega
  | row next stop =>
    simp only [Point.Fits, Point.Reaches] at fits reaches
    omega
  | stage =>
    cases stage : e.stage <;> simp only [Point.Fits, Point.Reaches, stage] at fits reaches <;> omega

def HasShown (before : Engine) (moves : List Move) (now : Int) : Prop :=
  now = before.now ∨ .tick now ∈ moves

structure Tally (before : Engine) (plan : Job) (first : Nat) (moves : List Move)
    (new : List Event) (p : Point) (e : Engine) (reach : Nat) : Prop where
  low : first ≤ reach
  reaches : p.Reaches plan e reach
  rows : (new.filterMap Event.call?).reverse.map Prod.fst = plan.dueRows first reach
  ends : p.inFlight e ++ (new.filterMap Event.reply?).map Prod.fst
    = (new.filterMap Event.call?).map Prod.fst
  calls : ∀ call ∈ new.filterMap Event.call?, ∃ now contact, before.HasShown moves now ∧
    plan.contactAt now call.1 = .ok contact ∧ call.2 = .of before.workspace plan.lists contact
  success : e.state.success = moves.count (.answer .accepted)
  failure : e.state.failure = moves.countP Move.isRejection

@[simp] theorem call_handover (e : Engine) : e.handover.filterMap Event.call? = [] := by
  cases taken : e.snapshot? <;> simp [handover, taken, Event.call?]

@[simp] theorem reply_handover (e : Engine) : e.handover.filterMap Event.reply? = [] := by
  cases taken : e.snapshot? <;> simp [handover, taken, Event.reply?]

@[simp] theorem call_operatorMarks (e : Engine) (action : Action) :
    (e.operatorMarks action).filterMap Event.call? = [] := by
  unfold operatorMarks
  split_ifs <;> simp

@[simp] theorem reply_operatorMarks (e : Engine) (action : Action) :
    (e.operatorMarks action).filterMap Event.reply? = [] := by
  unfold operatorMarks
  split_ifs <;> simp

theorem HasShown.mono {before : Engine} {moves moves' : List Move} {now : Int}
    (shown : before.HasShown moves now) (grown : moves ⊆ moves') : before.HasShown moves' now :=
  shown.imp_right fun here => grown here

structure Silent (moves : List Move) (new : List Event) (moves' : List Move)
    (new' : List Event) : Prop where
  grown : moves ⊆ moves'
  calls : new'.filterMap Event.call? = new.filterMap Event.call?
  replies : new'.filterMap Event.reply? = new.filterMap Event.reply?
  accepted : moves'.count (.answer .accepted) = moves.count (.answer .accepted)
  rejected : moves'.countP Move.isRejection = moves.countP Move.isRejection

namespace Silent
variable {moves : List Move} {new : List Event}

theorem refl : Silent moves new moves new :=
  ⟨List.Subset.refl _, rfl, rfl, rfl, rfl⟩

theorem marks {events : List Event} (calls : events.filterMap Event.call? = [])
    (replies : events.filterMap Event.reply? = []) : Silent moves new moves (events ++ new) :=
  ⟨List.Subset.refl _, by simp [calls], by simp [replies], rfl, rfl⟩

theorem move {new' : List Event} {move : Move} (silent : Silent moves new moves new')
    (unaccepted : move ≠ .answer .accepted) (unrejected : move.isRejection = false) :
    Silent moves new (moves ++ [move]) new' :=
  ⟨List.subset_append_left _ _, silent.calls, silent.replies,
    by rw [List.count_append, List.count_singleton, if_neg (by simpa using unaccepted),
      Nat.add_zero],
    by simp [unrejected]⟩

end Silent

namespace Tally
variable {before e e' : Engine} {plan : Job} {first reach : Nat} {moves moves' : List Move}
  {new new' : List Event} {p p' : Point}

private theorem carry (tally : Tally before plan first moves new p e reach)
    (silent : Silent moves new moves' new') (reaches : p'.Reaches plan e' reach)
    (inFlight : p'.inFlight e' = p.inFlight e) (success : e'.state.success = e.state.success)
    (failure : e'.state.failure = e.state.failure) :
    Tally before plan first moves' new' p' e' reach :=
  { low := tally.low
    reaches
    rows := silent.calls ▸ tally.rows
    ends := by rw [inFlight, silent.replies, silent.calls, tally.ends]
    calls := fun call made => by
      obtain ⟨now, contact, shown, here⟩ := tally.calls call (silent.calls ▸ made)
      exact ⟨now, contact, shown.mono silent.grown, here⟩
    success := by rw [success, silent.accepted, tally.success]
    failure := by rw [failure, silent.rejected, tally.failure] }

private theorem halt (tally : Tally before plan first moves new p e reach)
    (placed : Placed before plan first p e) (silent : Silent moves new moves' new')
    (quiet : p.inFlight e = [])
    (stage : e'.stage = .finalNotice ∨ ∃ outcome, e'.stage = .ended outcome)
    (unfinished : e'.state.status ≠ .completed) (row : e'.state.row = e.state.row)
    (success : e'.state.success = e.state.success) (failure : e'.state.failure = e.state.failure) :
    Tally before plan first moves' new' .stage e' reach := by
  have within := placed.within tally.reaches
  refine tally.carry silent ?_ (Eq.trans ?_ quiet.symm) success failure
  · obtain stage | ⟨outcome, stage⟩ := stage <;> simpa [Point.Reaches, stage, row, unfinished]
  · obtain stage | ⟨outcome, stage⟩ := stage <;> simp [Point.inFlight, stage]

private theorem finish (tally : Tally before plan first moves new .batch e reach)
    (placed : Placed before plan first .batch e)
    (ending : ¬ (e.state.row < e.state.totalRows ∧ e.state.status ≠ .cancelling)) :
    Tally before plan first moves new .stage e.finish reach := by
  have here : e.state.row = reach := tally.reaches
  obtain ⟨_, _, total, low, high, _⟩ := placed
  refine tally.carry .refl ?_ ?_ (by simp) (by simp)
  · by_cases cancelling : e.state.status = .cancelling
    · simp [Point.Reaches, cancelling]
      omega
    · have last : ¬ e.state.row < e.state.totalRows := fun left => ending ⟨left, cancelling⟩
      simp [Point.Reaches, cancelling]
      omega
  · simp [Point.inFlight]

private theorem skip {row stop : Nat} (tally : Tally before plan first moves new (.row row stop) e reach)
    (blank : plan.emailAt? row = none) (events : List Event) :
    Tally before plan first moves new (.row (row + 1) stop) (e.noteAll events) (row + 1) := by
  obtain ⟨low, reaches, rows, ends, calls, success, failure⟩ := tally
  cases reaches
  refine ⟨by omega, rfl, ?_, ends, calls, success, failure⟩
  rw [rows, plan.dueRows_succ low, blank]
  simp

private theorem deliver {row stop : Nat} {now : Int} {contact : Contact}
    (tally : Tally before plan first moves new (.row row stop) e reach)
    (due : (plan.emailAt? row).isSome) (shown : before.HasShown moves now)
    (built : plan.contactAt now row = .ok contact) (events : List Event) {delivery : Delivery}
    (shape : delivery = .of before.workspace plan.lists contact) :
    Tally before plan first moves (.submitted row delivery :: new) .stage
      ((e.noteAll events).submit row stop contact) (row + 1) := by
  obtain ⟨low, reaches, rows, ends, calls, success, failure⟩ := tally
  cases reaches
  refine ⟨by omega, rfl, ?_, ?_, ?_, by simpa, by simpa⟩
  · rw [plan.dueRows_succ low, ← rows]
    simp [Event.call?, due]
  · simpa [Point.inFlight, List.filterMap_cons, Event.call?, Event.reply?] using ends
  · simp only [Event.call?, List.filterMap_cons, List.mem_cons]
    rintro call (rfl | old)
    · exact ⟨now, contact, shown, built, shape⟩
    · exact calls call old

private theorem close {row stop : Nat} {contact : Contact} {reply : Reply} {move : Move}
    (tally : Tally before plan first moves new .stage e reach)
    (called : e.stage = .call row stop contact)
    (reaches : Point.stage.Reaches plan e' reach) (inFlight : Point.stage.inFlight e' = [])
    {events : List Event} (calls : events.filterMap Event.call? = [])
    (replies : events.filterMap Event.reply? = [])
    (success : e'.state.success = (moves ++ [move]).count (.answer .accepted))
    (failure : e'.state.failure = (moves ++ [move]).countP Move.isRejection) :
    Tally before plan first (moves ++ [move]) (events ++ .replied row reply :: new) .stage e'
      reach := by
  refine ⟨tally.low, reaches, ?_, ?_, ?_, success, failure⟩
  · simpa [List.filterMap_cons, Event.call?, calls] using tally.rows
  · rw [inFlight]
    simpa [List.filterMap_cons, Event.call?, Event.reply?, Point.inFlight, called, calls, replies]
      using tally.ends
  · intro call made
    have made : call ∈ new.filterMap Event.call? := by
      simpa [List.filterMap_cons, Event.call?, calls] using made
    obtain ⟨now, contact, shown, here⟩ := tally.calls call made
    exact ⟨now, contact, shown.mono (List.subset_append_left _ _), here⟩

private theorem accept {row stop : Nat} {contact : Contact}
    (tally : Tally before plan first moves new .stage e reach)
    (called : e.stage = .call row stop contact) :
    Tally before plan first (moves ++ [.answer .accepted]) (.replied row .accepted :: new) .stage
      (e.answer .accepted) reach := by
  refine tally.close called ?_ ?_ List.filterMap_nil List.filterMap_nil ?_ ?_
  · simpa [Point.Reaches, called, accepted_fields called] using tally.reaches
  · simp [Point.inFlight, accepted_fields called]
  · simp [accepted_fields called, tally.success]
  · simp [accepted_fields called, tally.failure, Move.isRejection]

private theorem reject {row stop : Nat} {contact : Contact}
    (tally : Tally before plan first moves new .stage e reach)
    (called : e.stage = .call row stop contact) (failure : Failure) :
    Tally before plan first (moves ++ [.answer (.rejected failure)])
      (.replied row (.rejected failure) :: new) .stage (e.answer (.rejected failure)) reach := by
  refine tally.close called ?_ ?_ List.filterMap_nil List.filterMap_nil ?_ ?_
  · simpa [Point.Reaches, called, rejected_fields called] using tally.reaches
  · simp [Point.inFlight, rejected_fields called]
  · simp [rejected_fields called, RunState.reject, tally.success]
  · simp [rejected_fields called, RunState.reject, tally.failure, Move.isRejection]

private theorem cut {row stop : Nat} {contact : Contact} {move : Move}
    (tally : Tally before plan first moves new .stage e reach)
    (placed : Placed before plan first .stage e) (called : e.stage = .call row stop contact)
    (cut : move = .answer .interrupted ∨ move = .interrupt) :
    Tally before plan first (moves ++ [move]) (e.handover ++ .replied row .interrupted :: new)
      .stage (e.note (.replied row .interrupted)).interrupted reach := by
  have within := placed.within tally.reaches
  refine tally.close called ?_ (by simp [Point.inFlight]) (by simp) (by simp) ?_ ?_
  · simpa [Point.Reaches] using within
  · obtain rfl | rfl := cut <;> simp [tally.success]
  · obtain rfl | rfl := cut <;> simp [tally.failure, Move.isRejection]

private theorem stand (tally : Tally before plan first moves new p e reach)
    (silent : Silent moves new moves' new') (state : e'.state = e.state)
    (reaches : p'.Reaches plan e' reach) (quiet : p.inFlight e = []) (quiet' : p'.inFlight e' = []) :
    Tally before plan first moves' new' p' e' reach :=
  tally.carry silent reaches (quiet'.trans quiet.symm) (by rw [state]) (by rw [state])

private theorem remain (tally : Tally before plan first moves new .stage e reach)
    (silent : Silent moves new moves' new') (stage : e'.stage = e.stage)
    (completed : e'.state.status = .completed ↔ e.state.status = .completed)
    (row : e'.state.row = e.state.row) (success : e'.state.success = e.state.success)
    (failure : e'.state.failure = e.state.failure) :
    Tally before plan first moves' new' .stage e' reach := by
  refine tally.carry silent ?_ (by simp [Point.inFlight, stage]) success failure
  simpa [Point.Reaches, stage, row, completed] using tally.reaches

end Tally

namespace Course
variable {before e : Engine} {plan : Job} {first : Nat} {moves : List Move} {new : List Event}
  {p : Point}

/-- The clock of a run stands at a time that it was shown. -/
theorem hasShown (course : Course before plan first moves new p e) :
    before.HasShown moves e.now := by
  have earlier {moves : List Move} {now : Int} (move : Move) (shown : before.HasShown moves now) :
      before.HasShown (moves ++ [move]) now := shown.mono (List.subset_append_left _ _)
  induction course with
  | begun begun => exact .inl begun.now
  | opened _ _ _ _ _ _ _ ih | held _ _ _ ih | skipped _ _ _ _ _ _ ih | submitted _ _ _ _ _ _ ih =>
    exact ih
  | finished _ _ ih | stopped _ _ _ ih | raised _ _ _ _ _ ih | closed _ _ ih => simpa using ih
  | accepted _ _ ih | rejected _ _ _ ih | cutOff _ _ _ _ ih | interrupted _ _ ih | crashed _ _ _ ih
  | operated _ _ ih | saved _ ih => simpa using earlier _ ih
  | returned _ _ ih | yielded _ _ ih | ended _ _ _ _ ih | continued _ _ ih | released _ _ _ ih =>
    exact earlier _ ih
  | ticked => exact .inr (by simp)

theorem tallied (course : Course before plan first moves new p e) :
    ∃ reach, Tally before plan first moves new p e reach := by
  induction course with
  | begun begun =>
    have state := begun.state
    refine ⟨first, Nat.le_refl _, ?_, ?_, ?_, ?_, ?_, ?_⟩ <;>
      simp [Point.Reaches, Point.inFlight, state, reset, Job.dueRows_self]
  | opened stop course left going ends batch counted ih =>
    obtain ⟨reach, tally⟩ := ih
    have here : _ = (reach : Int) := tally.reaches
    exact ⟨reach, tally.carry .refl (by simp [Point.Reaches, here]) rfl rfl rfl⟩
  | finished course ending ih =>
    obtain ⟨reach, tally⟩ := ih
    exact ⟨reach, tally.finish course.placed ending⟩
  | held course inside paused ih =>
    obtain ⟨reach, tally⟩ := ih
    exact ⟨reach, tally.stand .refl rfl tally.reaches rfl rfl⟩
  | stopped course inside cancelling ih =>
    obtain ⟨reach, tally⟩ := ih
    exact ⟨reach, tally.halt course.placed .refl rfl (.inl (by simp)) (by simp [cancelling])
      (by simp) (by simp) (by simp)⟩
  | raised course inside unpaused going read ih =>
    obtain ⟨reach, tally⟩ := ih
    exact ⟨reach, tally.halt course.placed (.marks (by simp) (by simp)) rfl (.inl (by simp))
      (by simp) (by simp) (by simp) (by simp)⟩
  | @skipped _ _ e row stop discards contact course inside unpaused going read blank ih =>
    obtain ⟨reach, tally⟩ := ih
    have built := contactAt_job course.placed.job row
    rw [read] at built
    have same := Job.email?_contactAt built.symm
    exact ⟨row + 1, tally.skip (same ▸ blank) _⟩
  | @submitted _ _ e row stop discards contact course inside unpaused going read due ih =>
    obtain ⟨reach, tally⟩ := ih
    obtain ⟨workspace, job, _, _, _, _⟩ := course.placed
    have built := contactAt_job job row
    rw [read] at built
    have same := Job.email?_contactAt built.symm
    exact ⟨row + 1, tally.deliver (same ▸ due) course.hasShown built.symm _
      (by simp [deliveryOf, workspace, job])⟩
  | @closed _ _ e row stop course outside ih =>
    obtain ⟨reach, tally⟩ := ih
    have here : reach = row := tally.reaches
    obtain ⟨_, _, _, _, _, _, _, ended, _⟩ := course.placed
    refine ⟨reach, tally.carry (.marks (by simp) (by simp)) ?_ rfl (by simp) (by simp)⟩
    simp [Point.Reaches]
    omega
  | accepted course called ih =>
    obtain ⟨reach, tally⟩ := ih
    exact ⟨reach, tally.accept called⟩
  | rejected course called failure ih =>
    obtain ⟨reach, tally⟩ := ih
    exact ⟨reach, tally.reject called failure⟩
  | cutOff course called move cut ih =>
    obtain ⟨reach, tally⟩ := ih
    exact ⟨reach, tally.cut course.placed called cut⟩
  | @interrupted _ _ e course waiting ih =>
    obtain ⟨reach, tally⟩ := ih
    have quiet : Point.stage.inFlight e = [] := by
      obtain waiting | ⟨row, stop, waiting⟩ := waiting <;> simp [Point.inFlight, waiting]
    exact ⟨reach, tally.halt course.placed ((Silent.marks (by simp) (by simp)).move (by simp) rfl)
      quiet (.inr ⟨.interrupted, by simp⟩) (by simp) (by simp) (by simp) (by simp)⟩
  | returned course noticed ih =>
    obtain ⟨reach, tally⟩ := ih
    exact ⟨reach, tally.stand (Silent.refl.move (by simp) rfl) rfl
      (by simpa [Point.Reaches, noticed] using tally.reaches) (by simp [Point.inFlight, noticed]) rfl⟩
  | yielded course noticed ih =>
    obtain ⟨reach, tally⟩ := ih
    exact ⟨reach, tally.stand (Silent.refl.move (by simp) rfl) rfl
      (by simpa [Point.Reaches, noticed] using tally.reaches) (by simp [Point.inFlight, noticed]) rfl⟩
  | @crashed _ _ e course noticed failure ih =>
    obtain ⟨reach, tally⟩ := ih
    have quiet : Point.stage.inFlight e = [] := by
      obtain noticed | ⟨row, stop, noticed⟩ := noticed <;> simp [Point.inFlight, noticed]
    exact ⟨reach, tally.halt course.placed ((Silent.marks (by simp) (by simp)).move (by simp) rfl)
      quiet (.inl (by simp)) (by simp) (by simp) (by simp) (by simp)⟩
  | ended course noticed failure? outcome ih =>
    obtain ⟨reach, tally⟩ := ih
    exact ⟨reach, tally.stand (Silent.refl.move (by simp) rfl) rfl
      (by simpa [Point.Reaches, noticed] using tally.reaches) (by simp [Point.inFlight, noticed])
      (by simp [Point.inFlight])⟩
  | continued course waiting ih =>
    obtain ⟨reach, tally⟩ := ih
    exact ⟨reach, tally.stand (Silent.refl.move (by simp) rfl) rfl
      (by simpa [Point.Reaches, waiting] using tally.reaches) (by simp [Point.inFlight, waiting]) rfl⟩
  | released course waiting signal ih =>
    obtain ⟨reach, tally⟩ := ih
    exact ⟨reach, tally.stand (Silent.refl.move (by simp) rfl) rfl
      (by simpa [Point.Reaches, waiting] using tally.reaches) (by simp [Point.inFlight, waiting]) rfl⟩
  | operated course action ih =>
    obtain ⟨reach, tally⟩ := ih
    exact ⟨reach, tally.remain ((Silent.marks (by simp) (by simp)).move (by simp) rfl) (by simp)
      (by simp) (by simp) (by simp) (by simp)⟩
  | saved course ih =>
    obtain ⟨reach, tally⟩ := ih
    exact ⟨reach, tally.remain ((Silent.marks (by simp) (by simp)).move (by simp) rfl) (by simp)
      (by simp) (by simp) (by simp) (by simp)⟩
  | ticked course now shown ih =>
    obtain ⟨reach, tally⟩ := ih
    exact ⟨reach, tally.remain (Silent.refl.move (by simp) rfl) rfl Iff.rfl rfl rfl rfl⟩

end Course

theorem call_isMark (event : Event) (called : event.call?.isSome) : event.isMark := by
  cases event <;> simp_all [Event.call?, Event.isMark]

namespace Tally
variable {before e : Engine} {plan : Job} {first reach : Nat} {moves : List Move}
  {new : List Event}

theorem last_row (tally : Tally before plan first moves new .stage e reach)
    (placed : Placed before plan first .stage e) (completed : e.state.status = .completed) :
    reach = plan.file.totalRows := by
  have fits := placed.fits
  have reaches := tally.reaches
  cases stage : e.stage <;>
    simp_all [Point.Fits, Point.Reaches, Status.isActive, Status.isTerminal]

theorem callsSince_fst (tally : Tally before plan first moves new .stage e reach)
    (course : Course before plan first moves new .stage e) :
    (before.callsSince e).map Prod.fst = plan.dueRows first reach := by
  rw [← tally.rows, callsSince, course.filterMap_since call_isMark]

theorem mem_callsSince (tally : Tally before plan first moves new .stage e reach)
    (course : Course before plan first moves new .stage e) {call : Nat × Delivery}
    (made : call ∈ before.callsSince e) : ∃ now contact, before.HasShown moves now ∧
      plan.contactAt now call.1 = .ok contact ∧ call.2 = .of before.workspace plan.lists contact := by
  rw [callsSince, course.filterMap_since call_isMark, List.mem_reverse] at made
  exact tally.calls call made

end Tally

/-- A run delivers an initial segment of the due rows from its first row on, each once and in order,
and all of them if it is completed. It counts the deliveries that were accepted and those that were
rejected. -/
theorem start_deliveries (before : Engine) (job : Job) (row : Int) {mapping : Mapping}
    {dropped : List Text} (idle : before.state.status.isActive = false)
    (valid : job.mapping.validate job.file.headers = .ok (mapping, dropped)) :
    (before.start job row).1 = .ok () ∧
      ∀ moves e, Moves (before.start job row).2 moves e →
        let plan := planOf job mapping
        let due := plan.dueRows (resumeRow job.file row) job.file.totalRows
        let rows := (before.callsSince e).map Prod.fst
        rows <+: due ∧ rows.Nodup ∧ (e.state.status = .completed → rows = due) ∧
          (∀ call ∈ before.callsSince e, ∃ now contact, before.HasShown moves now ∧
            plan.contactAt now call.1 = .ok contact ∧
            call.2 = if (Entries.distinct job.lists).isEmpty then .upsert before.workspace contact
              else .subscribe before.workspace contact (Entries.distinct job.lists)) ∧
          e.state.success = moves.count (.answer .accepted) ∧
          e.state.failure = moves.countP Move.isRejection := by
  obtain ⟨e₀, begun, started⟩ := start_valid before job row idle valid
  rw [started]
  refine ⟨rfl, fun moves e reached => ?_⟩
  obtain ⟨new, course⟩ := Course.of_moves begun reached
  obtain ⟨reach, tally⟩ := course.tallied
  have within := (course.placed.within tally.reaches).2
  have rows := tally.callsSince_fst course
  refine ⟨?_, ?_, ?_, ?_, tally.success, tally.failure⟩
  · rw [rows]
    exact ⟨_, (planOf job mapping).dueRows_append tally.low within⟩
  · rw [rows]
    exact Job.dueRows_nodup _ _ _
  · intro completed
    rw [rows, tally.last_row course.placed completed]
    rfl
  · exact fun call made => tally.mem_callsSince course made

def sample : Engine :=
  .of "w" 2 (by decide) ⟨.of (.memory []), ProgressStore.defaultFreshness, 0⟩

def sampleJob : Job :=
  { file := ⟨"people.csv", ["email"], [["ann@x.io"], [" "]], 15⟩
    mapping := [(Attribute.emailKey, "email")]
    lists := []
    calendar := .own }

theorem sampleJob_valid :
    sampleJob.mapping.validate sampleJob.file.headers = .ok (sampleJob.mapping, []) := by
  rfl

/-- A run of the sample delivers its first row, and is completed once that is accepted. -/
theorem start_deliveries_sample :
    ∃ moves e, Moves (sample.start sampleJob 0).2 moves e ∧ e.state.status = .completed ∧
      (sample.callsSince e).map Prod.fst = [0] := by
  let moves : List Move := [.answer .accepted, .acknowledge none, .acknowledge none, .proceed]
  have ended : ((sample.start sampleJob 0).2.after? moves).map (·.state.status)
      = some .completed := by
    decide +kernel
  obtain ⟨e, reached, completed⟩ := Option.map_eq_some_iff.mp ended
  have run := reaches_iff.mpr reached
  have all := ((start_deliveries sample sampleJob 0 rfl sampleJob_valid).2 moves e run).2.2.1
  refine ⟨moves, e, run, completed, (all completed).trans ?_⟩
  decide +kernel

end Engine
end Intake
