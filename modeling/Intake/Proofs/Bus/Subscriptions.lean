import Intake.Proofs.Bus
import Mathlib.Data.List.Induction

/-! Subscriptions to a bus and the registrations that they leave. What a subscription returns cancels it
by removing the first registration of its handler for its event. That is its own registration as long as
no other handler is registered between the two; called again, it removes the registration of another
subscription of the same handler, if there is one. -/
namespace Intake

structure Subscription (η : Type) where
  event : Text
  handler : η
  /-- whether what it returned was not called yet -/
  live : Bool

namespace Bus

inductive Step (η π : Type)
  | subscribe (event : Text) (handler : η)
  | cancel (number : Nat)
  | publish (event : Text) (payload : π)
  /-- the innermost publication goes on to its next handler, or ends -/
  | next

structure Roster (η π : Type) where
  bus : Bus η π
  made : List (Subscription η)

section
variable {η : Type}

def liveOf (event : Text) (made : List (Subscription η)) : List η :=
  (made.filter fun s => s.live && s.event = event).map (·.handler)

def endsIn [DecidableEq η] (handler : η) (handlers : List η) : Bool :=
  (handlers.dropWhile (· ≠ handler)).all (· = handler)

end

namespace Roster
variable {η π : Type} [DecidableEq η]

def empty : Roster η π := ⟨.empty, []⟩

def step (r : Roster η π) : Step η π → Roster η π
  | .subscribe event handler =>
    ⟨r.bus.subscribe event handler, r.made ++ [⟨event, handler, true⟩]⟩
  | .cancel number =>
    match r.made[number]? with
    | none => r
    | some s => ⟨r.bus.unsubscribe s.event s.handler, r.made.set number { s with live := false }⟩
  | .publish event payload => { r with bus := r.bus.publish event payload }
  | .next => { r with bus := (r.bus.next?.map (·.2)).getD r.bus }

def after (history : List (Step η π)) : Roster η π := history.foldl step empty

def Exact (r : Roster η π) : Prop := ∀ event, r.bus.handlersOf event = liveOf event r.made

def Counted (r : Roster η π) : Prop :=
  ∀ event handler, (r.bus.handlersOf event).count handler = (liveOf event r.made).count handler

/-- Whether cancelling a subscription is due: for the first time, or again when no subscription of its
handler to its event is left. -/
def isDue (r : Roster η π) (number : Nat) : Bool :=
  match r.made[number]? with
  | none => true
  | some s => s.live || s.handler ∉ liveOf s.event r.made

/-- Whether cancelling a subscription that is due finds no other handler between the first one of its
handler and its own. -/
def isOwn (r : Roster η π) (number : Nat) : Bool :=
  match r.made[number]? with
  | none => true
  | some s =>
    if s.live then endsIn s.handler (liveOf s.event (r.made.take number))
    else s.handler ∉ liveOf s.event r.made

end Roster

/-! Handlers and the subscriptions that they are registered by. -/

section
variable {η : Type}

theorem liveOf_append (event : Text) (made more : List (Subscription η)) :
    liveOf event (made ++ more) = liveOf event made ++ liveOf event more := by
  simp [liveOf]

theorem liveOf_cons (event : Text) (s : Subscription η) (made : List (Subscription η)) :
    liveOf event (s :: made)
      = (if s.live = true ∧ s.event = event then [s.handler] else []) ++ liveOf event made := by
  simp only [liveOf, List.filter_cons, Bool.and_eq_true, decide_eq_true_eq]
  split_ifs <;> rfl

/-- The handlers of an event before and after a subscription is cancelled. -/
theorem liveOf_cancelled {made : List (Subscription η)} {number : Nat} {s : Subscription η}
    (found : made[number]? = some s) (event : Text) :
    liveOf event made = liveOf event (made.take number)
        ++ ((if s.live = true ∧ s.event = event then [s.handler] else [])
          ++ liveOf event (made.drop (number + 1))) ∧
      liveOf event (made.set number { s with live := false })
        = liveOf event (made.take number) ++ liveOf event (made.drop (number + 1)) := by
  obtain ⟨within, rfl⟩ := List.getElem?_eq_some_iff.mp found
  constructor
  · rw [← liveOf_cons, ← liveOf_append, ← List.drop_eq_getElem_cons within, List.take_append_drop]
  · rw [List.set_eq_take_append_cons_drop, if_pos within, liveOf_append, liveOf_cons]
    simp

private theorem cons_middle_iff {handler : η} {before after : List η} :
    before ++ handler :: after = handler :: (before ++ after) ↔ ∀ h ∈ before, h = handler := by
  induction before with
  | nil => simp
  | cons first before ih =>
    rw [List.forall_mem_cons, ← ih, List.cons_append, List.cons_append, List.cons.injEq]
    constructor
    · rintro ⟨rfl, rest⟩
      exact ⟨rfl, rest⟩
    · rintro ⟨rfl, rest⟩
      exact ⟨rfl, rest⟩

/-- Removing the first place of a handler removes another one of its places exactly if nothing else
stands between them. -/
theorem erase_middle_iff [DecidableEq η] {handler : η} {before after : List η} :
    (before ++ handler :: after).erase handler = before ++ after ↔ endsIn handler before = true := by
  induction before with
  | nil => simp [endsIn]
  | cons first before ih =>
    by_cases same : first = handler
    · subst same
      rw [List.cons_append, List.erase_cons_head, List.cons_append, cons_middle_iff]
      simp [endsIn]
    · rw [List.cons_append, List.erase_cons_tail (by simpa using same), List.cons_append,
        List.cons.injEq, and_iff_right rfl, ih]
      simp [endsIn, same]

end

namespace Roster
variable {η π : Type} [DecidableEq η] {r : Roster η π}

omit [DecidableEq η] in
theorem handlersOf_subscribe (b : Bus η π) (event other : Text) (handler : η) :
    (b.subscribe event handler).handlersOf other
      = b.handlersOf other ++ if event = other then [handler] else [] := by
  rw [subscribe, handlersOf_setHandlers]
  split_ifs with same
  · rw [same]
  · rw [List.append_nil]

theorem handlersOf_unsubscribe (b : Bus η π) (event other : Text) (handler : η) :
    (b.unsubscribe event handler).handlersOf other
      = if event = other then (b.handlersOf other).erase handler else b.handlersOf other :=
  b.handlersOf_edit (.unsubscribe event handler) other

omit [DecidableEq η] in
/-- A publication that goes on leaves the registrations alone. -/
theorem handlersOf_next (b : Bus η π) (event : Text) :
    ((b.next?.map (·.2)).getD b).handlersOf event = b.handlersOf event := by
  unfold next?
  split
  · rfl
  · split <;> rfl

/-! What one step does to the registrations and to the subscriptions that are live. -/

/-- A step cancels a subscription, or it changes both sides alike: a subscription adds its handler at
their ends, and anything else leaves them as they are. -/
theorem step_cases (r : Roster η π) (step : Step η π) :
    (∃ number s, step = .cancel number ∧ r.made[number]? = some s) ∨
      (∀ number, step = .cancel number → r.made[number]? = none) ∧
        ∀ event, ∃ more, (r.step step).bus.handlersOf event = r.bus.handlersOf event ++ more ∧
          liveOf event (r.step step).made = liveOf event r.made ++ more := by
  cases step with
  | subscribe place handler =>
    refine .inr ⟨nofun, fun event => ?_⟩
    refine ⟨if place = event then [handler] else [], handlersOf_subscribe _ _ _ _, ?_⟩
    rw [Roster.step, liveOf_append, liveOf_cons]
    simp [liveOf]
  | cancel number =>
    cases found : r.made[number]? with
    | some s => exact .inl ⟨number, s, rfl, found⟩
    | none =>
      refine .inr ⟨?_, fun event => ⟨[], ?_⟩⟩
      · rintro _ ⟨⟩
        exact found
      · simp [Roster.step, found]
  | publish => exact .inr ⟨nofun, fun event => ⟨[], (List.append_nil _).symm, (List.append_nil _).symm⟩⟩
  | next =>
    refine .inr ⟨nofun, fun event => ⟨[], ?_, (List.append_nil _).symm⟩⟩
    rw [List.append_nil]
    exact handlersOf_next _ _

/-- Cancelling removes the first registration of the handler of a subscription for its event, and the
subscription itself from those that are live, if it was one of them. -/
theorem step_cancel {number : Nat} {s : Subscription η} (found : r.made[number]? = some s)
    (event : Text) :
    (r.step (.cancel number)).bus.handlersOf event
        = (if s.event = event then (r.bus.handlersOf event).erase s.handler
            else r.bus.handlersOf event) ∧
      liveOf event r.made = liveOf event (r.made.take number)
        ++ ((if s.live = true ∧ s.event = event then [s.handler] else [])
          ++ liveOf event (r.made.drop (number + 1))) ∧
      liveOf event (r.step (.cancel number)).made
        = liveOf event (r.made.take number) ++ liveOf event (r.made.drop (number + 1)) := by
  have there : r.step (.cancel number)
      = ⟨r.bus.unsubscribe s.event s.handler, r.made.set number { s with live := false }⟩ := by
    simp [step, found]
  obtain ⟨split, left⟩ := liveOf_cancelled found event
  rw [there]
  exact ⟨handlersOf_unsubscribe _ _ _ _, split, left⟩

/-- How many times a handler is registered for an event, and how many of its subscriptions are live,
once a subscription was cancelled. -/
theorem count_cancel {number : Nat} {s : Subscription η} (found : r.made[number]? = some s)
    (event : Text) (handler : η) :
    let one := if s.event = event ∧ s.handler = handler then 1 else 0
    ((r.step (.cancel number)).bus.handlersOf event).count handler
        = (r.bus.handlersOf event).count handler - one ∧
      (liveOf event r.made).count handler
        = (liveOf event (r.step (.cancel number)).made).count handler + if s.live then one else 0 := by
  obtain ⟨registered, split, left⟩ := step_cancel found event
  rw [registered, left, split]
  by_cases same : s.event = event
  · cases s.live <;> simp [same, List.count_erase, List.count_cons]
    omega
  · simp [same]

/-- A step keeps the registrations exact if it is no cancelling, or one that finds its own
registration. -/
theorem Exact.step_iff (exact : r.Exact) (step : Step η π) :
    (r.step step).Exact ↔ ∀ number, step = .cancel number → r.isOwn number = true := by
  obtain ⟨number, s, rfl, found⟩ | ⟨other, alike⟩ := r.step_cases step
  · simp only [Step.cancel.injEq, forall_eq']
    -- Only the event of the subscription matters, where the criterion is that of the lists.
    have own : (r.step (.cancel number)).bus.handlersOf s.event
          = liveOf s.event (r.step (.cancel number)).made ↔ r.isOwn number = true := by
      obtain ⟨registered, split, left⟩ := step_cancel found s.event
      rw [registered, left, if_pos rfl, exact s.event]
      simp only [isOwn, found]
      cases live : s.live
      · rw [live] at split
        simp only [Bool.false_eq_true, false_and, if_false, List.nil_append] at split
        simp [split]
      · rw [live] at split
        simp only [true_and, if_true, List.singleton_append] at split
        rw [split, erase_middle_iff, if_pos rfl]
    rw [← own]
    refine ⟨fun all => all s.event, fun here event => ?_⟩
    by_cases same : s.event = event
    · exact same ▸ here
    · obtain ⟨registered, split, left⟩ := step_cancel found event
      rw [registered, left, if_neg same, exact event, split]
      simp [same]
  · refine iff_of_true (fun event => ?_) fun number same => ?_
    · obtain ⟨more, registered, live⟩ := alike event
      rw [registered, live, exact event]
    · simp [isOwn, other number same]

/-- A step keeps the numbers of registrations right if it is no cancelling, or one that is due. -/
theorem Counted.step_iff (counted : r.Counted) (step : Step η π) :
    (r.step step).Counted ↔ ∀ number, step = .cancel number → r.isDue number = true := by
  obtain ⟨number, s, rfl, found⟩ | ⟨other, alike⟩ := r.step_cases step
  · simp only [Step.cancel.injEq, forall_eq', isDue, found, Bool.or_eq_true, decide_eq_true_eq,
      ← List.count_eq_zero]
    constructor
    · intro kept
      obtain ⟨registered, live⟩ := count_cancel found s.event s.handler
      have before := counted s.event s.handler
      have after := kept s.event s.handler
      by_cases first : s.live = true
      · exact .inl first
      · simp only [and_self, if_true, first, Bool.false_eq_true, if_false] at registered live
        omega
    · intro due event handler
      obtain ⟨registered, live⟩ := count_cancel found event handler
      have before := counted event handler
      rcases due with first | gone
      · rw [if_pos first] at live
        omega
      · by_cases same : s.event = event ∧ s.handler = handler
        · obtain ⟨rfl, rfl⟩ := same
          omega
        · rw [if_neg same] at registered live
          split_ifs at live <;> omega
  · refine iff_of_true (fun event handler => ?_) fun number same => ?_
    · obtain ⟨more, registered, live⟩ := alike event
      rw [registered, live, List.count_append, List.count_append, counted event handler]
    · simp [isDue, other number same]

/-- No handler is registered more often than it has live subscriptions, if it was not before. -/
theorem count_le_step (step : Step η π) {event : Text} {handler : η}
    (bound : (r.bus.handlersOf event).count handler ≤ (liveOf event r.made).count handler) :
    ((r.step step).bus.handlersOf event).count handler
      ≤ (liveOf event (r.step step).made).count handler := by
  obtain ⟨number, s, rfl, found⟩ | ⟨_, alike⟩ := r.step_cases step
  · obtain ⟨registered, live⟩ := count_cancel found event handler
    split_ifs at registered live <;> omega
  · obtain ⟨more, registered, live⟩ := alike event
    rw [registered, live, List.count_append, List.count_append]
    omega

/-! Histories. -/

theorem after_concat (history : List (Step η π)) (step : Step η π) :
    after (history ++ [step]) = (after history).step step := by
  simp [after]

/-- What each step keeps exactly under a condition holds throughout a history exactly if each of its
steps meets the condition. -/
theorem throughout_iff {holds : Roster η π → Prop} {keeps : Roster η π → Step η π → Prop}
    (start : holds empty) (step : ∀ r step, holds r → (holds (r.step step) ↔ keeps r step))
    (history : List (Step η π)) :
    (∀ past, past <+: history → holds (after past)) ↔
      ∀ past step, past ++ [step] <+: history → keeps (after past) step := by
  constructor
  · intro always past act within
    have earlier := always past ((List.prefix_append _ _).trans within)
    rw [← step _ act earlier, ← after_concat]
    exact always _ within
  · intro kept past within
    induction past using List.reverseRecOn with
    | nil => exact start
    | append_singleton past act ih =>
      rw [after_concat, step _ act (ih ((List.prefix_append _ _).trans within))]
      exact kept past act within

/-- Throughout a history the handlers of each event are those of its live subscriptions, in their order,
exactly if cancelling always finds its own registration: if another subscription of the handler is live
before it, no other handler is registered between the two, and if the subscription was cancelled before,
no other one of its handler is live. Their numbers are right exactly under the second condition alone. In
any history no handler is registered more often than it has live subscriptions. -/
theorem cancel_removes_own (history : List (Step η π)) :
    ((∀ past, past <+: history → (after past).Exact) ↔
        ∀ past number, past ++ [.cancel number] <+: history → (after past).isOwn number = true) ∧
      ((∀ past, past <+: history → (after past).Counted) ↔
        ∀ past number, past ++ [.cancel number] <+: history → (after past).isDue number = true) ∧
      ∀ event handler, ((after history).bus.handlersOf event).count handler
        ≤ (liveOf event (after history).made).count handler := by
  refine ⟨?_, ?_, fun event handler => ?_⟩
  · rw [throughout_iff (fun _ => rfl) fun _ step exact => exact.step_iff step]
    exact ⟨fun kept past number within => kept past _ within number rfl,
      fun kept past step within number same => kept past number (same ▸ within)⟩
  · rw [throughout_iff (fun _ _ => rfl) fun _ step counted => counted.step_iff step]
    exact ⟨fun kept past number within => kept past _ within number rfl,
      fun kept past step within number same => kept past number (same ▸ within)⟩
  · induction history using List.reverseRecOn with
    | nil => exact Nat.le_refl _
    | append_singleton history step ih =>
      rw [after_concat]
      exact count_le_step step ih

/-- Of two subscriptions of a handler the later one, cancelled twice, takes the registration of the other
one with it; so does a cancelled one that is called again after the handler was subscribed anew. And where
another handler is registered between the two, cancelling the later one removes the registration of the
earlier one, which changes their order. -/
theorem cancel_removes_other :
    let twice : Roster Nat Unit :=
      after [.subscribe "e" 0, .subscribe "e" 0, .cancel 1, .cancel 1]
    let anew : Roster Nat Unit := after [.subscribe "e" 0, .cancel 0, .subscribe "e" 0, .cancel 0]
    let crossed : Roster Nat Unit :=
      after [.subscribe "e" 0, .subscribe "e" 1, .subscribe "e" 0, .cancel 2]
    (twice.bus.handlersOf "e" = [] ∧ liveOf "e" twice.made = [0]) ∧
      (anew.bus.handlersOf "e" = [] ∧ liveOf "e" anew.made = [0]) ∧
      (crossed.bus.handlersOf "e" = [1, 0] ∧ liveOf "e" crossed.made = [0, 1]) := by
  decide

end Roster
end Bus
end Intake
