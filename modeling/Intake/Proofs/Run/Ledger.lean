import Intake.Proofs.Run.Deliveries

/-! The counts of a run and its error log follow from the replies to its deliveries. Each rejected
one makes an entry, and the first of these are kept, as many as the log can hold. -/
namespace Intake

def Reply.isRejected : Reply → Bool
  | rejected _ => true
  | _ => false

def Job.entry? (plan : Job) (reply : Nat × Reply) : Option ErrorEntry :=
  match reply.2 with
  | .rejected failure =>
    some ⟨reply.1 + Engine.firstLine, (plan.emailAt? reply.1).getD "Unknown", failure.text⟩
  | _ => none

/-- Rejecting keeps the first entries, as many as the log can hold. -/
theorem RunState.errors_reject {s : RunState} {entries : List ErrorEntry} {entry : ErrorEntry}
    (kept : s.errors = entries.take s.capacity.toNat) :
    (s.reject entry).errors = (entries ++ [entry]).take s.capacity.toNat := by
  have full : s.isLogFull = true ↔ s.capacity.toNat ≤ entries.length := by
    simp only [RunState.isLogFull, kept, List.length_take, decide_eq_true_eq]
    omega
  simp only [RunState.reject]
  split_ifs with isFull
  · rw [kept, List.take_append_of_le_length (full.mp isFull)]
  · have room : entries.length < s.capacity.toNat := Nat.lt_of_not_le (mt full.mpr isFull)
    have grown : (entries ++ [entry]).length ≤ s.capacity.toNat := by
      rw [List.length_append]
      exact room
    rw [kept, List.take_of_length_le (Nat.le_of_lt room), List.take_of_length_le grown]

namespace Engine

structure Ledger (before : Engine) (plan : Job) (replies : List (Nat × Reply)) (e : Engine) :
    Prop where
  capacity : e.state.capacity = before.state.capacity
  success : e.state.success = (replies.map Prod.snd).count .accepted
  failure : e.state.failure = (replies.map Prod.snd).countP Reply.isRejected
  errors : e.state.errors
    = (replies.reverse.filterMap plan.entry?).take e.state.capacity.toNat

namespace Ledger
variable {before e e' : Engine} {plan : Job} {replies : List (Nat × Reply)} {row stop : Nat}
  {contact : Contact}

theorem carry (ledger : Ledger before plan replies e)
    (capacity : e'.state.capacity = e.state.capacity)
    (success : e'.state.success = e.state.success) (failure : e'.state.failure = e.state.failure)
    (errors : e'.state.errors = e.state.errors) : Ledger before plan replies e' :=
  { capacity := capacity.trans ledger.capacity
    success := success.trans ledger.success
    failure := failure.trans ledger.failure
    errors := by rw [errors, capacity, ledger.errors] }

theorem cut (ledger : Ledger before plan replies e) (row : Nat) :
    Ledger before plan ((row, .interrupted) :: replies) e :=
  { capacity := ledger.capacity
    success := by simpa using ledger.success
    failure := by simpa [Reply.isRejected] using ledger.failure
    errors := by simpa [Job.entry?, List.filterMap_cons] using ledger.errors }

theorem accepted (ledger : Ledger before plan replies e)
    (called : e.stage = .call row stop contact) :
    Ledger before plan ((row, .accepted) :: replies) (e.answer .accepted) := by
  obtain ⟨_, _, _, _, state, _⟩ := accepted_fields called
  refine ⟨?_, ?_, ?_, ?_⟩ <;> rw [state]
  · exact ledger.capacity
  · simp [ledger.success]
  · simpa [Reply.isRejected] using ledger.failure
  · simpa [Job.entry?, List.filterMap_cons] using ledger.errors

theorem rejected (ledger : Ledger before plan replies e) (called : e.stage = .call row stop contact)
    {now : Int} (built : plan.contactAt now row = .ok contact) (failure : Failure) :
    Ledger before plan ((row, .rejected failure) :: replies) (e.answer (.rejected failure)) := by
  obtain ⟨_, _, _, _, state, _⟩ := rejected_fields called failure
  have entry : plan.entry? (row, .rejected failure) = some (entryOf row contact failure) := by
    simp [Job.entry?, entryOf, Job.email?_contactAt built]
  refine ⟨?_, ?_, ?_, ?_⟩ <;> rw [state]
  · exact ledger.capacity
  · simpa [RunState.reject] using ledger.success
  · simp [RunState.reject, List.countP_cons, Reply.isRejected, ledger.failure]
  · rw [RunState.errors_reject ledger.errors]
    simp [entry, RunState.reject]

end Ledger

/-- Throughout a run its counts and its error log are those of the replies so far. -/
theorem Course.ledger {before e : Engine} {plan : Job} {first : Nat} {moves : List Move}
    {new : List Event} {p : Point} (course : Course before plan first moves new p e) :
    Ledger before plan (new.filterMap Event.reply?) e := by
  induction course with
  | begun begun => refine ⟨?_, ?_, ?_, ?_⟩ <;> simp [begun.state, reset]
  | opened stop course left going ends batch counted ih => exact ih.carry rfl rfl rfl rfl
  | finished course ending ih => exact ih.carry (by simp) (by simp) (by simp) (by simp)
  | held course inside paused ih => exact ih.carry rfl rfl rfl rfl
  | stopped course inside cancelling ih => exact ih.carry (by simp) (by simp) (by simp) (by simp)
  | raised course inside unpaused going read ih =>
    simpa using ih.carry (by simp) (by simp) (by simp) (by simp)
  | skipped course inside unpaused going read blank ih => exact ih.carry rfl rfl rfl rfl
  | submitted course inside unpaused going read due ih => exact ih.carry rfl rfl rfl rfl
  | closed course outside ih => simpa using ih.carry (by simp) (by simp) (by simp) (by simp)
  | accepted course called ih => exact ih.accepted called
  | rejected course called failure ih =>
    have fits := course.placed.fits
    simp only [Point.Fits, called] at fits
    obtain ⟨_, built⟩ := fits.2.2.2.2.1
    exact ih.rejected called built failure
  | @cutOff _ _ e row _ _ course called move cut ih =>
    let after := (e.note (.replied row .interrupted)).interrupted
    have replied : Ledger _ _ _ after := (ih.cut row).carry (by simp [after]) (by simp [after])
      (by simp [after]) (by simp [after])
    simpa [List.filterMap_cons, Event.reply?] using replied
  | interrupted course waiting ih =>
    simpa using ih.carry (by simp) (by simp) (by simp) (by simp)
  | returned course noticed ih => exact ih
  | yielded course noticed ih => exact ih.carry rfl rfl rfl rfl
  | crashed course noticed failure ih =>
    simpa using ih.carry (by simp) (by simp) (by simp) (by simp)
  | ended course noticed failure? outcome ih => exact ih.carry rfl rfl rfl rfl
  | continued course waiting ih => exact ih
  | released course waiting signal ih => exact ih
  | operated course action ih => simpa using ih.carry (by simp) (by simp) (by simp) (by simp)
  | saved course ih => simpa using ih.carry (by simp) (by simp) (by simp) (by simp)
  | ticked course now shown ih => exact ih.carry rfl rfl rfl rfl

end Engine
end Intake
