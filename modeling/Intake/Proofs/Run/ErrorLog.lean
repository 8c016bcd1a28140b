import Intake.Proofs.Run.Failures
import Intake.Proofs.Run.Lines

/-! The error log of a run. It keeps the first rejected deliveries in their order, as many as it can
hold, and those that follow are only counted. -/
namespace Intake

def Reply.failure? : Reply → Option Failure
  | rejected failure => some failure
  | _ => none

theorem Reply.isSome_failure? (reply : Reply) : reply.failure?.isSome = reply.isRejected := by
  cases reply <;> rfl

theorem Job.dueRows_pairwise (job : Job) (start stop : Nat) :
    (job.dueRows start stop).Pairwise (· < ·) :=
  List.Pairwise.filter _ List.pairwise_lt_range'

namespace Engine

def failuresSince (before after : Engine) : List (Nat × Failure) :=
  (before.repliesSince after).filterMap fun reply => reply.2.failure?.map (reply.1, ·)

inductive Arises : Engine → Prop
  | made (workspace : Text) (batchSize : Nat) (positive : 0 < batchSize) (store : ProgressStore) :
      Arises (.of workspace batchSize positive store)
  | started {e : Engine} (arises : Arises e) (job : Job) (row : Int) : Arises (e.start job row).2
  | moved {e : Engine} (arises : Arises e) (move : Move) : Arises (e.move move)
  | stored {e : Engine} (arises : Arises e) (store : ProgressStore) : Arises { e with store }
  | noted {e : Engine} (arises : Arises e) (event : Event) : Arises (e.note event)

structure Records (before e : Engine) (failure : Nat × Failure) (entry : ErrorEntry) : Prop where
  line : entry.line = failure.1 + 2
  email : ∃ delivery, (failure.1, delivery) ∈ before.callsSince e ∧
    delivery.contact.email? = some entry.email
  message : entry.message = if failure.2.message = [] then failure.2.kind else failure.2.message
  told : failure.2.kind ≠ [] → entry.message ≠ []

/-! Nothing but a start clears the log of an engine, and nothing changes how much it can hold. -/

structure Logs (e e' : Engine) : Prop where
  errors : e.state.errors <+: e'.state.errors
  capacity : e'.state.capacity = e.state.capacity

section
variable {e e' e'' : Engine}

theorem Logs.of_same (errors : e'.state.errors = e.state.errors)
    (capacity : e'.state.capacity = e.state.capacity) : Logs e e' :=
  ⟨errors ▸ List.prefix_rfl, capacity⟩

theorem Logs.trans (first : Logs e e') (second : Logs e' e'') : Logs e e'' :=
  ⟨first.errors.trans second.errors, second.capacity.trans first.capacity⟩

theorem logs_walk (e : Engine) (row stop : Nat) : Logs e (e.walk row stop) := by
  fun_induction walk e row stop with
  | case1 e row inside paused => exact .of_same rfl rfl
  | case2 e row inside unpaused cancelling => exact .of_same (by simp) (by simp)
  | case3 e row inside unpaused going discards noted error =>
    exact .of_same (by simp [noted]) (by simp [noted])
  | case4 e row inside unpaused going discards noted contact due => exact .of_same rfl rfl
  | case5 e row inside unpaused going discards noted contact blank read ih =>
    have opened : Logs e noted := .of_same rfl rfl
    exact opened.trans ih
  | case6 e row outside => exact .of_same (by simp) (by simp)

theorem logs_nextBatch (e : Engine) : Logs e e.nextBatch := by
  unfold nextBatch
  split_ifs
  · let start := e.state.row.toNat
    let stop := min (start + e.batchSize) e.state.totalRows.toNat
    let counted := { e with state := { e.state with batch := (start / e.batchSize + 1 : Nat) } }
    have walked := logs_walk (counted.note (.batchBegun counted.state stop)) start stop
    exact ⟨walked.errors, walked.capacity⟩
  · exact .of_same (by simp) (by simp)

theorem logs_move (e : Engine) (move : Move) : Logs e (e.move move) := by
  cases move with
  | answer reply =>
    cases stage : e.stage <;> simp only [Engine.move, answer, stage]
    case call row stop contact =>
      cases reply with
      | accepted => exact .of_same rfl rfl
      | rejected failure =>
        refine ⟨?_, rfl⟩
        simp only [notify, note_fields, RunState.reject]
        split_ifs
        · exact List.prefix_rfl
        · exact List.prefix_append _ _
      | interrupted => exact .of_same (by simp) (by simp)
    all_goals exact .of_same rfl rfl
  | acknowledge failure? =>
    cases stage : e.stage <;> cases failure? <;> simp only [Engine.move, acknowledge, stage]
    case rowNotice.none row stop => exact logs_walk e (row + 1) stop
    case rowNotice.some | batchNotice.some => exact .of_same (by simp) (by simp)
    all_goals exact .of_same rfl rfl
  | proceed =>
    cases stage : e.stage <;> simp only [Engine.move, proceed, stage]
    case turn => exact logs_nextBatch e
    case release row stop =>
      split_ifs
      · exact logs_walk e row stop
      · exact .of_same rfl rfl
    all_goals exact .of_same rfl rfl
  | interrupt =>
    cases stage : e.stage <;> simp only [Engine.move, interrupt, stage]
    case call | turn | release => exact .of_same (by simp) (by simp)
    all_goals exact .of_same rfl rfl
  | operate action => exact .of_same (by simp [Engine.move]) (by simp [Engine.move])
  | save => exact .of_same (by simp [Engine.move]) (by simp [Engine.move])
  | tick now => exact .of_same rfl rfl

theorem logs_moves {moves : List Move} (run : Moves e moves e') : Logs e e' := by
  induction run with
  | none => exact .of_same rfl rfl
  | next move run admitted ih => exact ih.trans (logs_move _ move)

theorem capacity_start (e : Engine) (job : Job) (row : Int) :
    (e.start job row).2.state.capacity = e.state.capacity := by
  have begins (e' : Engine) (plan : Job) (first : Nat) :
      (e'.begin plan first).state.capacity = e'.state.capacity := (logs_nextBatch _).capacity
  unfold start
  cases job.mapping.validate job.file.headers <;> dsimp only <;> split_ifs <;>
    simp only [begins] <;> rfl

/-- The log of an engine can hold a hundred entries. -/
theorem Arises.capacity (arises : Arises e) : e.state.capacity = 100 := by
  induction arises with
  | made => rfl
  | started _ job row ih => exact (capacity_start _ job row).trans ih
  | moved _ move ih => exact (logs_move _ move).capacity.trans ih
  | stored _ _ ih | noted _ _ ih => exact ih

end

section
variable {before e : Engine} {plan : Job} {first reach : Nat} {moves : List Move}
  {new : List Event}

/-- The replies to the deliveries of a run come in the order of its rows. -/
theorem Tally.replies_pairwise (tally : Tally before plan first moves new .stage e reach)
    (course : Course before plan first moves new .stage e) :
    ((before.repliesSince e).map Prod.fst).Pairwise (· < ·) := by
  have rows := plan.dueRows_pairwise first reach
  have ends := congrArg List.reverse tally.ends
  rw [List.reverse_append, ← List.map_reverse, ← List.map_reverse, ← course.repliesSince,
    tally.rows] at ends
  rw [← ends] at rows
  exact (List.pairwise_append.mp rows).1

/-- A row with a reply was delivered, and its contact has an email. -/
theorem Tally.delivered (tally : Tally before plan first moves new .stage e reach)
    (course : Course before plan first moves new .stage e) {row : Nat}
    (replied : row ∈ (before.repliesSince e).map Prod.fst) :
    ∃ now contact email delivery, plan.contactAt now row = .ok contact ∧
      contact.email? = some email ∧ (row, delivery) ∈ before.callsSince e ∧ delivery.contact = contact := by
  have called : row ∈ (before.callsSince e).map Prod.fst := by
    rw [course.repliesSince, List.map_reverse, List.mem_reverse] at replied
    rw [callsSince, course.filterMap_since call_isMark, List.map_reverse, List.mem_reverse,
      ← tally.ends]
    exact List.mem_append_right _ replied
  obtain ⟨⟨_, delivery⟩, made, rfl⟩ := List.mem_map.mp called
  obtain ⟨now, contact, _, built, shape⟩ := tally.mem_callsSince course made
  rw [tally.callsSince_fst course] at called
  obtain ⟨email, due⟩ := Option.isSome_iff_exists.mp (Job.mem_dueRows.mp called).2.2
  refine ⟨now, contact, email, delivery, built, ?_, made, ?_⟩
  · rw [Job.email?_contactAt built, due]
  · simp only at shape
    rw [shape]
    unfold Delivery.of
    split_ifs <;> rfl

/-- Where each row with a reply was delivered, the rejections are recorded one by one. -/
theorem records_replies {replies : List (Nat × Reply)}
    (delivered : ∀ row ∈ replies.map Prod.fst, ∃ now contact email delivery,
      plan.contactAt now row = .ok contact ∧ contact.email? = some email ∧
        (row, delivery) ∈ before.callsSince e ∧ delivery.contact = contact) :
    List.Forall₂ (Records before e)
      (replies.filterMap fun reply => reply.2.failure?.map (reply.1, ·))
      (replies.filterMap plan.entry?) := by
  induction replies with
  | nil => exact .nil
  | cons reply rest ih =>
    have others := ih fun row here => delivered row (List.mem_cons_of_mem _ here)
    obtain ⟨row, reply⟩ := reply
    cases reply with
    | rejected failure =>
      obtain ⟨_, contact, email, delivery, built, found, made, rfl⟩ := delivered row (by simp)
      have entry : plan.entry? (row, .rejected failure)
          = some (entryOf row delivery.contact failure) := by
        simp [Job.entry?, entryOf, Job.email?_contactAt built]
      rw [List.filterMap_cons_some entry]
      refine .cons ⟨rfl, ⟨delivery, made, ?_⟩, ?_, Failure.text_ne_nil⟩ others
      · simp [entryOf, found]
      · simp [entryOf, Failure.text]
    | accepted | interrupted => exact others

end

/-- A log that is full keeps its entries. -/
theorem rejected_full {e : Engine} {failure : Failure}
    (admitted : e.admits (.answer (.rejected failure)) = true) (full : e.state.isLogFull = true) :
    (e.move (.answer (.rejected failure))).state
      = { e.state with failure := e.state.failure + 1 } := by
  cases stage : e.stage <;> simp [admits, stage] at admitted
  rw [Engine.move, (rejected_fields stage failure).2.2.2.2.1, RunState.reject, if_pos full]

/-- The error log of a run holds the first hundred rejected deliveries in their order, each by the
line of its row, the email of its contact, and the message of its failure or else its kind. Its lines
go up, what it holds stays, and a rejection that it cannot hold is only counted. -/
theorem start_error_log {before : Engine} (arises : Arises before) (job : Job) (row : Int)
    {mapping : Mapping} {dropped : List Text} (idle : before.state.status.isActive = false)
    (valid : job.mapping.validate job.file.headers = .ok (mapping, dropped)) :
    (before.start job row).1 = .ok () ∧
      ∀ moves e, Moves (before.start job row).2 moves e →
        let failures := before.failuresSince e
        e.state.failure = failures.length ∧
          List.Forall₂ (Records before e) (failures.take 100) e.state.errors ∧
          e.state.errors.Pairwise (·.line < ·.line) ∧
          (∀ more e', Moves e more e' → e.state.errors <+: e'.state.errors) ∧
          ∀ failure, e.admits (.answer (.rejected failure)) → 100 ≤ e.state.failure →
            (e.move (.answer (.rejected failure))).state
              = { e.state with failure := e.state.failure + 1 } := by
  obtain ⟨e₀, begun, started⟩ := start_valid before job row idle valid
  rw [started]
  refine ⟨rfl, fun moves e reached => ?_⟩
  obtain ⟨new, course⟩ := Course.of_moves begun reached
  obtain ⟨reach, tally⟩ := course.tallied
  have ledger := course.ledger
  have capacity : e.state.capacity = 100 := ledger.capacity.trans arises.capacity
  have errors := ledger.errors
  rw [← course.repliesSince, capacity] at errors
  have recorded : List.Forall₂ (Records before e) ((before.failuresSince e).take 100)
      e.state.errors := by
    rw [errors]
    exact List.forall₂_take 100 (records_replies fun row here => tally.delivered course here)
  have counted : e.state.failure = (before.failuresSince e).length := by
    rw [ledger.failure, failuresSince, List.length_filterMap_eq_countP, course.repliesSince,
      List.countP_reverse, List.countP_map]
    refine congrArg _ (List.countP_congr fun reply _ => ?_)
    simp [Reply.isSome_failure?]
  have rising : e.state.errors.Pairwise (·.line < ·.line) := by
    have rows := List.pairwise_map.mp (tally.replies_pairwise course)
    rw [errors]
    refine List.Pairwise.sublist (List.take_sublist _ _) (List.pairwise_filterMap.mpr ?_)
    refine rows.imp fun below first made second made' => ?_
    obtain ⟨_, _, line, _⟩ := Job.entry?_eq_some made
    obtain ⟨_, _, line', _⟩ := Job.entry?_eq_some made'
    omega
  refine ⟨counted, recorded, rising, fun more e' run => (logs_moves run).errors,
    fun failure admitted full => rejected_full admitted ?_⟩
  have size := recorded.length_eq
  rw [List.length_take] at size
  simp only [RunState.isLogFull, capacity, decide_eq_true_eq]
  omega

def longJob : Job :=
  { sampleJob with file := ⟨"people.csv", ["email"], List.replicate 101 ["ann"], 410⟩ }

/-- A run that is rejected a hundred and one times, without a message, has kept the first hundred of
these failures. -/
theorem start_error_log_sample :
    ∃ moves e, Moves (sample.start longJob 0).2 moves e ∧ e.state.failure = 101 ∧
      e.state.errors.length = 100 ∧ e.state.errors.Pairwise (·.line < ·.line) ∧
      List.Forall₂ (Records sample e) ((sample.failuresSince e).take 100) e.state.errors := by
  let row : List Move := [.answer (.rejected ⟨"ValueError", ""⟩), .acknowledge none]
  let moves : List Move :=
    (List.replicate 50 (row ++ row ++ [.acknowledge none, .proceed])).flatten ++ row
  have counted : ((sample.start longJob 0).2.after? moves).map (·.state.failure) = some 101 := by
    decide +kernel
  obtain ⟨e, reached, failures⟩ := Option.map_eq_some_iff.mp counted
  have run := reaches_iff.mpr reached
  obtain ⟨_, all⟩ := start_error_log (.made _ _ _ _) longJob 0 rfl rfl
  obtain ⟨count, recorded, rising, _⟩ := all moves e run
  have size := recorded.length_eq
  rw [List.length_take] at size
  exact ⟨moves, e, run, failures, by omega, rising, recorded⟩

end Engine
end Intake
