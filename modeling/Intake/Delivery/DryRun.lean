import Intake.Delivery.Basic
import Intake.Json.Spelling

/-! Delivery that goes nowhere: every contact is accepted and remembered. -/
namespace Intake

structure DryRun where
  upserts : List (Text × Contact)
  subscriptions : List (Text × Contact × List Text)

namespace DryRun

def empty : DryRun := ⟨[], []⟩

def name : Text := "dry-run"

def accept (delivery : Delivery) (d : DryRun) : DryRun :=
  match delivery with
  | .upsert workspace contact => { d with upserts := d.upserts ++ [(workspace, contact)] }
  | .subscribe workspace contact lists =>
    { d with subscriptions := d.subscriptions ++ [(workspace, contact, lists)] }

def deliver (delivery : Delivery) (d : DryRun) : Reply × DryRun := (.accepted, d.accept delivery)

/-- The emails of all contacts: first of those that were upserted, then of the others. -/
def emails (d : DryRun) : List Text :=
  (d.upserts.map (·.2) ++ d.subscriptions.map (·.2.1)).map fun contact =>
    ((Entries.get? Attribute.emailKey contact).getD .null).spell

end DryRun
end Intake
