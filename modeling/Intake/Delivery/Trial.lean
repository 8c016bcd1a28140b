import Intake.Delivery.DryRun
import Intake.Json.Spelling
import Intake.Settings.Datum

/-! Deliveries on trial: a courier that refuses the contacts with given emails. The operator may stop
an import during one of its calls. -/
namespace Intake

structure Trial where
  refused : List Text
  /-- the call, counted from one, during which the operator stops the import -/
  stopAt : Option Int

namespace Trial

structure Ledger where
  calls : List Contact
  accepted : DryRun
  dismissals : Nat

def Ledger.empty : Ledger := ⟨[], .empty, 0⟩

def ofOptions (options : List (Datum × Datum)) : Trial where
  refused :=
    match Datum.get? "fail_emails" options with
    | some (.list items) => items.filterMap fun
      | .text email => some email
      | _ => none
    | _ => []
  stopAt :=
    match Datum.get? "sigint_at" options with
    | some (.integer n) => some n
    | _ => none

def refuses (t : Trial) (contact : Contact) : Bool :=
  match Entries.get? Attribute.emailKey contact with
  | some (.text email) => t.refused.contains email
  | _ => false

def refusal (contact : Contact) : Failure :=
  ⟨"RowSubmissionError",
    "rejected " ++ ((Entries.get? Attribute.emailKey contact).getD .null).spell⟩

def deliver (t : Trial) (delivery : Delivery) (ledger : Ledger) : Handling × Ledger :=
  let contact := delivery.contact
  let ledger := { ledger with calls := ledger.calls ++ [contact] }
  let stops := t.stopAt = some (ledger.calls.length : Int)
  if t.refuses contact then (⟨stops, .rejected (refusal contact)⟩, ledger)
  else (⟨stops, .accepted⟩, { ledger with accepted := ledger.accepted.accept delivery })

def carrier (t : Trial) : Carrier Ledger where
  deliver := t.deliver
  dismiss ledger := (.accepted, { ledger with dismissals := ledger.dismissals + 1 })

end Trial
end Intake
