import Intake.Entries
import Intake.Text.Basic

/-! A bus on which payloads are published to the handlers of an event. A publication goes to the
handlers that were registered when it began; while one of them is at work it may register and
remove handlers and publish in turn, so the publications under way form a stack. -/
namespace Intake

structure Publication (η π : Type) where
  payload : π
  /-- the handlers that it has still to reach -/
  waiting : List η
  /-- how many it has reached -/
  reached : Nat

structure Bus (η π : Type) where
  /-- the handlers of each event, in the order of their registration -/
  handlers : Entries Text (List η)
  /-- the publications under way, the innermost first -/
  underway : List (Publication η π)

inductive Bus.Turn (η π : Type)
  /-- a handler is called -/
  | call (handler : η) (payload : π)
  /-- the innermost publication is over, after so many handlers -/
  | done (reached : Nat)

namespace Bus
variable {η π : Type} [DecidableEq η]

def empty : Bus η π := ⟨[], []⟩

def handlersOf (b : Bus η π) (event : Text) : List η := (Entries.get? event b.handlers).getD []

def setHandlers (b : Bus η π) (event : Text) (handlers : List η) : Bus η π :=
  { b with handlers := Entries.put event handlers b.handlers }

/-- Registers a handler. One that is registered twice is called twice. -/
def subscribe (b : Bus η π) (event : Text) (handler : η) : Bus η π :=
  b.setHandlers event (b.handlersOf event ++ [handler])

/-- Removes the first registration of a handler, if there is one. -/
def unsubscribe (b : Bus η π) (event : Text) (handler : η) : Bus η π :=
  b.setHandlers event ((b.handlersOf event).erase handler)

def publish (b : Bus η π) (event : Text) (payload : π) : Bus η π :=
  { b with underway := ⟨payload, b.handlersOf event, 0⟩ :: b.underway }

/-- Goes on with the innermost publication, whatever became of the handler that was called last. -/
def next? (b : Bus η π) : Option (Turn η π × Bus η π) :=
  match b.underway with
  | [] => none
  | p :: outer =>
    match p.waiting with
    | [] => some (.done p.reached, { b with underway := outer })
    | handler :: waiting =>
      some (.call handler p.payload,
        { b with underway := { p with waiting, reached := p.reached + 1 } :: outer })

end Bus
end Intake
