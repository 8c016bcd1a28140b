import Intake.Contact

/-! Deliveries: what is handed to the service that keeps the contacts, and what comes back. A
delivery may be repeated, as the service knows a contact by its email. -/
namespace Intake

inductive Delivery
  | upsert (workspace : Text) (contact : Contact)
  | subscribe (workspace : Text) (contact : Contact) (lists : List Text)

namespace Delivery

def contact : Delivery → Contact
  | upsert _ contact | subscribe _ contact _ => contact

/-- A contact is subscribed to its lists if there are any. -/
def of (workspace : Text) (lists : List Text) (contact : Contact) : Delivery :=
  if lists.isEmpty then upsert workspace contact else subscribe workspace contact lists

end Delivery

/-- A failure by the name of its kind and its message, which may be empty. -/
structure Failure where
  kind : Text
  message : Text
  deriving DecidableEq, Repr

/-- The message, or the kind if there is none. -/
def Failure.text (failure : Failure) : Text :=
  if failure.message.isEmpty then failure.kind else failure.message

/-- How a delivery ends, and the dismissal of whoever delivers. -/
inductive Reply
  | accepted
  | rejected (failure : Failure)
  /-- the run was interrupted meanwhile -/
  | interrupted
  deriving DecidableEq, Repr

/-- How a delivery goes: whether the operator stops the import meanwhile, and how it ends. -/
structure Handling where
  stops : Bool
  reply : Reply
  deriving DecidableEq, Repr

/-- Deliveries by somebody with a state. -/
abbrev Handler (σ : Type) := Delivery → σ → Handling × σ

/-- Somebody with a state who delivers, and who is dismissed in the end. -/
structure Carrier (σ : Type) where
  deliver : Handler σ
  dismiss : σ → Reply × σ

end Intake
