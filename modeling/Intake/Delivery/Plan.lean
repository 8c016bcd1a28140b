import Intake.Delivery.Http
import Intake.Delivery.Pace
import Intake.Settings.Basic

/-! The plan of delivery that settings make: by whom contacts are delivered, and at which pace. -/
namespace Intake

/-- Another way of delivery, as it is made of its options. -/
abbrev Maker (ω : Type) := List (Datum × Datum) → Option ω

abbrev Registry (ω : Type) := Entries Text (Entries Text (Maker ω))

inductive Courier (ω : Type)
  | dry
  | http (target : Http.Target) (timeout : Option Binary64)
  | other (courier : ω)

inductive PlanError
  | invalid (error : ConfigError)
  /-- a module that is not there -/
  | missingModule (name : Text)
  /-- options that do not fit -/
  | options
  /-- a class path or an address that is no text -/
  | notText
  deriving DecidableEq, Repr

structure Plan (ω : Type) where
  courier : Courier ω
  interval : Binary64
  delay : Binary64

namespace Plan
variable {ω : Type}

def find (registry : Registry ω) (path : Text) : Except PlanError (Maker ω) :=
  match Text.cutLast? (.scalar '.') path with
  | none | some ([], _) => .error (.invalid (.badClassPath path))
  | some (module, name) =>
    match Entries.get? module registry with
    | none => .error (.missingModule module)
    | some makers =>
      match Entries.get? name makers with
      | none => .error (.invalid (.undefinedClass module name))
      | some maker => .ok maker

/-- The text of a datum, if it says anything. -/
def textOf (datum : Datum) : Except PlanError (Option Text) :=
  if datum.isVoid then .ok none
  else match datum with
    | .text t => .ok (some t)
    | _ => .error .notText

/-- The token that a datum stands for, if it says anything. -/
def tokenOf (datum : Datum) : Option Text :=
  if datum.isVoid then none
  else match datum with
    | .text t => some t
    | .integer i => some (Text.ofInt i)
    | .real x => some x.text
    | .boolean _ => some "True"
    | _ => none

def courierOf (registry : Registry ω) (settings : Settings) (dryRun : Bool) :
    Except PlanError (Courier ω) := do
  if dryRun then return .dry
  match ← textOf settings.delivery with
  | some path =>
    let maker ← find registry path
    match maker settings.deliveryOptions with
    | some courier => return .other courier
    | none => throw .options
  | none =>
    match ← textOf settings.address with
    | none => throw (.invalid .badAddress)
    | some address => return .http ⟨address, tokenOf settings.token⟩ settings.timeout

def ofSettings (registry : Registry ω) (settings : Settings) (dryRun : Bool) :
    Except PlanError (Plan ω) := do
  let courier ← courierOf registry settings dryRun
  return ⟨courier, intervalOf settings.callsPerMinute, settings.delaySeconds⟩

end Plan
end Intake
