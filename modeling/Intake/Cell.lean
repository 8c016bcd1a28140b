import Intake.Attribute
import Intake.Calendar
import Intake.Json.Reader
import Intake.Number.Numeral

/-! Cells. A cell is stripped and coerced by the kind of its attribute; a blank cell and one that
cannot be coerced become null. Only an integer with too many digits is not settled here. -/
namespace Intake

inductive Rejection
  | notNumber (text : Text)
  | notFinite (text : Text)
  | invalidJson (error : Json.SyntaxError)
  | nestedJson
  | notDate (text : Text)
  deriving DecidableEq, Repr

def Rejection.message : Rejection → Text
  | notNumber text => "'" ++ text ++ "' is not a number"
  | notFinite text => "'" ++ text ++ "' is not a finite number"
  | invalidJson error => "invalid JSON: " ++ error.message
  | nestedJson => "JSON value is nested too deeply"
  | notDate text => "'" ++ text ++ "' is not a date"

structure OversizedInteger where
  digits : Nat
  deriving DecidableEq, Repr

def OversizedInteger.message (error : OversizedInteger) : Text := Json.digitsMessage error.digits

inductive Coercion
  | value (value : Json)
  | rejected (why : Rejection)

namespace Kind

/-- Reads a number. Digits may not be separated by underscores. -/
def coerceNumber (t : Text) : Coercion :=
  if t.contains (.scalar '_') then .rejected (.notNumber t)
  else match Binary64.ofText? t with
    | none => .rejected (.notNumber t)
    | some x => if x.isFinite then .value (.real x) else .rejected (.notFinite t)

def coerceJson (t : Text) : Except OversizedInteger Coercion :=
  match Json.read t with
  | .ok value => .ok (.value value)
  | .error (.malformed error _) => .ok (.rejected (.invalidJson error))
  | .error .nested => .ok (.rejected .nestedJson)
  | .error (.digits count) => .error ⟨count⟩

def coerceDate (dates : Dates) (t : Text) : Coercion :=
  match dates t with
  | some instant => .value (.text instant.text)
  | none => .rejected (.notDate t)

/-- Coerces a text that is not blank and has no blanks around it. -/
def coerce (kind : Kind) (dates : Dates) (t : Text) : Except OversizedInteger Coercion :=
  match kind with
  | string => .ok (.value (.text t))
  | number => .ok (coerceNumber t)
  | json => coerceJson t
  | date => .ok (coerceDate dates t)

/-- The value of a cell, and why it is null if it is so for another reason than being blank. -/
def readCell (kind : Kind) (dates : Dates) (raw : Text) :
    Except OversizedInteger (Json × Option Rejection) :=
  let text := raw.strip
  if text.isEmpty then .ok (.null, none)
  else match kind.coerce dates text with
    | .error error => .error error
    | .ok (.value value) => .ok (value, none)
    | .ok (.rejected why) => .ok (.null, some why)

def parse (kind : Kind) (dates : Dates) (raw : Text) : Except OversizedInteger Json :=
  (kind.readCell dates raw).map (·.1)

end Kind
end Intake
