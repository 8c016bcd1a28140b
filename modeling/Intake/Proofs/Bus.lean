import Intake.Bus
import Intake.Delivery.Basic
import Mathlib.Tactic.SplitIfs

/-! What a publication comes to. A handler at work may register and remove handlers, publish in turn
to any finite depth, and fail. Whatever the handlers do, a publication calls those that were registered
for its event when it began, and leaves behind what they made of the registrations. -/
namespace Intake

inductive Edit (η : Type)
  | subscribe (event : Text) (handler : η)
  | unsubscribe (event : Text) (handler : η)

inductive Conduct (η π : Type)
  | returns
  | fails (failure : Failure)
  | edit (change : Edit η) (next : Conduct η π)
  | publish (event : Text) (payload : π) (each : Nat → η → π → Conduct η π)
      (next : Nat → Conduct η π)

namespace Edit
variable {η : Type} [DecidableEq η]

def event : Edit η → Text
  | subscribe event _ | unsubscribe event _ => event

def apply (handlers : List η) : Edit η → List η
  | subscribe _ handler => handlers ++ [handler]
  | unsubscribe _ handler => handlers.erase handler

end Edit

namespace Bus
variable {η π : Type} [DecidableEq η]

def edit (b : Bus η π) : Edit η → Bus η π
  | .subscribe event handler => b.subscribe event handler
  | .unsubscribe event handler => b.unsubscribe event handler

def editAll (b : Bus η π) (edits : List (Edit η)) : Bus η π := edits.foldl edit b

abbrev Activity (η π : Type) := Bus η π → List (Edit η) → Bus η π → Prop

/-- The innermost publication goes on from its `turn`-th call to its end: the calls that it still
makes, how many it says to have made, the changes that are made meanwhile, and the bus after it. -/
inductive Delivers (acts : Nat → η → π → Activity η π) :
    Nat → Bus η π → List (η × π) → Nat → List (Edit η) → Bus η π → Prop
  | done {turn reached : Nat} {b after : Bus η π} (ended : b.next? = some (.done reached, after)) :
      Delivers acts turn b [] reached [] after
  | call {turn reached : Nat} {b called back after : Bus η π} {handler : η} {payload : π}
      {calls : List (η × π)} {first rest : List (Edit η)}
      (next : b.next? = some (.call handler payload, called))
      (acted : acts turn handler payload called first back)
      (others : Delivers acts (turn + 1) back calls reached rest after) :
      Delivers acts turn b ((handler, payload) :: calls) reached (first ++ rest) after

end Bus

def Conduct.Acts {η π : Type} [DecidableEq η] : Conduct η π → Bus.Activity η π
  | returns, b, edits, after | fails _, b, edits, after => edits = [] ∧ after = b
  | edit change next, b, edits, after =>
    ∃ rest, edits = change :: rest ∧ next.Acts (b.edit change) rest after
  | publish event payload each next, b, edits, after =>
    ∃ calls reached inner back rest,
      Bus.Delivers (fun turn handler payload => (each turn handler payload).Acts) 0
        (b.publish event payload) calls reached inner back ∧
      (next reached).Acts back rest after ∧ edits = inner ++ rest

namespace Bus
variable {η π : Type} [DecidableEq η]

/-! Changes of the registrations. -/

omit [DecidableEq η] in
theorem handlersOf_setHandlers (b : Bus η π) (event other : Text) (handlers : List η) :
    (b.setHandlers event handlers).handlersOf other
      = if event = other then handlers else b.handlersOf other := by
  simp only [handlersOf, setHandlers, Entries.get?_put]
  split_ifs <;> rfl

theorem handlersOf_edit (b : Bus η π) (change : Edit η) (event : Text) :
    (b.edit change).handlersOf event
      = if change.event = event then change.apply (b.handlersOf event) else b.handlersOf event := by
  cases change with
  | subscribe place handler | unsubscribe place handler =>
    by_cases same : place = event
    · subst same
      simp [edit, subscribe, unsubscribe, handlersOf_setHandlers, Edit.event, Edit.apply]
    · simp [edit, subscribe, unsubscribe, handlersOf_setHandlers, Edit.event, same]

/-- The handlers of an event are changed by the changes of that event, in their order. -/
theorem handlersOf_editAll (b : Bus η π) (edits : List (Edit η)) (event : Text) :
    (b.editAll edits).handlersOf event
      = (edits.filter (·.event = event)).foldl Edit.apply (b.handlersOf event) := by
  induction edits generalizing b with
  | nil => rfl
  | cons change edits ih =>
    rw [editAll, List.foldl_cons, ← editAll, ih, handlersOf_edit, List.filter_cons]
    split_ifs <;> simp_all

theorem edit_underway (b : Bus η π) (underway : List (Publication η π)) (change : Edit η) :
    ({ b with underway }).edit change = { b.edit change with underway } := by
  cases change <;> rfl

/-- Changes of the registrations have nothing to do with the publications under way. -/
theorem editAll_underway (b : Bus η π) (underway : List (Publication η π)) (edits : List (Edit η)) :
    ({ b with underway }).editAll edits = { b.editAll edits with underway } := by
  induction edits generalizing b with
  | nil => rfl
  | cons change edits ih =>
    rw [editAll, List.foldl_cons, ← editAll, edit_underway, ih]
    rfl

theorem editAll_append (b : Bus η π) (first second : List (Edit η)) :
    b.editAll (first ++ second) = (b.editAll first).editAll second :=
  List.foldl_append

/-! Publications. -/

def Activity.Settles (acts : Activity η π) : Prop :=
  ∀ b, ∃ edits, acts b edits (b.editAll edits) ∧
    ∀ edits' after, acts b edits' after → edits' = edits ∧ after = b.editAll edits

variable {acts : Nat → η → π → Activity η π}

/-- A publication that has reached some handlers and has still to reach others calls just these, if
those at work always come to an end and leave nothing but changes behind. -/
theorem delivers_waiting (settles : ∀ turn handler payload, (acts turn handler payload).Settles)
    (waiting : List η) (turn reached : Nat) (payload : π) (outer : List (Publication η π))
    (b : Bus η π) :
    ∃ edits,
      Delivers acts turn { b with underway := ⟨payload, waiting, reached⟩ :: outer }
        (waiting.map (·, payload)) (reached + waiting.length) edits
        { b.editAll edits with underway := outer } ∧
      ∀ calls reached' edits' after,
        Delivers acts turn { b with underway := ⟨payload, waiting, reached⟩ :: outer }
          calls reached' edits' after →
        calls = waiting.map (·, payload) ∧ reached' = reached + waiting.length ∧
          edits' = edits ∧ after = { b.editAll edits with underway := outer } := by
  induction waiting generalizing turn reached b with
  | nil =>
    refine ⟨[], .done rfl, ?_⟩
    intro calls reached' edits' after delivers
    cases delivers with
    | done ended =>
      cases ended
      exact ⟨rfl, rfl, rfl, rfl⟩
    | call next => cases next
  | cons handler waiting ih =>
    -- The handler that is called finds the publication one further, and it leaves it there.
    let called : Bus η π := { b with underway := ⟨payload, waiting, reached + 1⟩ :: outer }
    obtain ⟨first, acted, only⟩ := settles turn handler payload called
    have back : called.editAll first
        = { b.editAll first with underway := ⟨payload, waiting, reached + 1⟩ :: outer } :=
      editAll_underway b _ first
    rw [back] at acted only
    obtain ⟨rest, others, unique⟩ := ih (turn + 1) (reached + 1) (b.editAll first)
    have count : reached + (handler :: waiting).length = reached + 1 + waiting.length := by
      rw [List.length_cons]
      omega
    refine ⟨first ++ rest, ?_, ?_⟩
    · rw [count, editAll_append]
      exact .call rfl acted others
    · intro calls reached' edits' after delivers
      cases delivers with
      | done ended => cases ended
      | call next acted' others' =>
        cases next
        obtain ⟨rfl, rfl⟩ := only _ _ acted'
        obtain ⟨rfl, rfl, rfl, rfl⟩ := unique _ _ _ _ others'
        exact ⟨rfl, count.symm, rfl, by rw [editAll_append]⟩

/-- A publication begins with the handlers that are registered then, and once it is over the
publications under way are those of before. -/
theorem delivers_publish (settles : ∀ turn handler payload, (acts turn handler payload).Settles)
    (b : Bus η π) (event : Text) (payload : π) :
    ∃ edits,
      Delivers acts 0 (b.publish event payload) ((b.handlersOf event).map (·, payload))
        (b.handlersOf event).length edits (b.editAll edits) ∧
      ∀ calls reached edits' after,
        Delivers acts 0 (b.publish event payload) calls reached edits' after →
        calls = (b.handlersOf event).map (·, payload) ∧ reached = (b.handlersOf event).length ∧
          edits' = edits ∧ after = b.editAll edits := by
  obtain ⟨edits, delivers, unique⟩ :=
    delivers_waiting settles (b.handlersOf event) 0 0 payload b.underway b
  have left : { b.editAll edits with underway := b.underway } = b.editAll edits := by
    rw [← editAll_underway]
  rw [left, Nat.zero_add] at delivers unique
  exact ⟨edits, delivers, unique⟩

end Bus

/-- Whatever handlers do, they come to an end and leave nothing behind on the bus but the changes
that they, and the handlers of their own publications, have made. -/
theorem Conduct.settles {η π : Type} [DecidableEq η] (conduct : Conduct η π) :
    conduct.Acts.Settles := by
  induction conduct with
  | returns | fails =>
    intro b
    exact ⟨[], ⟨rfl, rfl⟩, fun _ _ acted => acted⟩
  | edit change next ih =>
    intro b
    obtain ⟨rest, acted, only⟩ := ih (b.edit change)
    refine ⟨change :: rest, ⟨rest, rfl, acted⟩, ?_⟩
    rintro _ after ⟨rest', rfl, acted'⟩
    obtain ⟨rfl, rfl⟩ := only _ _ acted'
    exact ⟨rfl, rfl⟩
  | publish event payload each next iheach ihnext =>
    intro b
    obtain ⟨inner, delivers, unique⟩ := Bus.delivers_publish iheach b event payload
    obtain ⟨rest, acted, only⟩ := ihnext (b.handlersOf event).length (b.editAll inner)
    rw [← Bus.editAll_append] at acted only
    refine ⟨inner ++ rest, ⟨_, _, inner, _, rest, delivers, acted, rfl⟩, ?_⟩
    rintro _ after ⟨_, _, _, _, rest', delivers', acted', rfl⟩
    obtain ⟨rfl, rfl, rfl, rfl⟩ := unique _ _ _ _ delivers'
    obtain ⟨rfl, rfl⟩ := only _ _ acted'
    exact ⟨rfl, rfl⟩

namespace Bus
variable {η π : Type} [DecidableEq η]

/-- A publication comes to its end in one way, whatever the handlers that it calls do. It calls those
that were registered for its event when it began, in the order and as often as they were, with its
payload, and says how many they were. Handlers that are added or removed meanwhile are so for the
publications that begin later. -/
theorem publish_reaches_registered (b : Bus η π) (event : Text) (payload : π)
    (conduct : Nat → η → π → Conduct η π) :
    ∃ edits,
      Delivers (fun turn handler payload => (conduct turn handler payload).Acts) 0
        (b.publish event payload) ((b.handlersOf event).map (·, payload))
        (b.handlersOf event).length edits (b.editAll edits) ∧
      (∀ calls reached edits' after,
        Delivers (fun turn handler payload => (conduct turn handler payload).Acts) 0
          (b.publish event payload) calls reached edits' after →
        calls = (b.handlersOf event).map (·, payload) ∧ reached = (b.handlersOf event).length ∧
          edits' = edits ∧ after = b.editAll edits) ∧
      ∀ other, (b.editAll edits).handlersOf other
        = (edits.filter (·.event = other)).foldl Edit.apply (b.handlersOf other) := by
  have settles (turn : Nat) (handler : η) (payload : π) := (conduct turn handler payload).settles
  obtain ⟨edits, delivers, unique⟩ := delivers_publish settles b event payload
  exact ⟨edits, delivers, unique, b.handlersOf_editAll edits⟩

end Bus
end Intake
