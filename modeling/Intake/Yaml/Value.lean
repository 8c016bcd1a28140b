import Intake.Number.Numeral
import Intake.Text.Case
import Intake.Settings.Datum
import Intake.Yaml.Node

/-! The data that YAML nodes stand for. -/
namespace Intake.Yaml

namespace Number

/-- Whether the first character of a text is a minus sign, and the text without its sign. -/
def sign : Text → Bool × Text
  | .scalar '-' :: rest => (true, rest)
  | .scalar '+' :: rest => (false, rest)
  | t => (false, t)

def natural? (base : Nat) (t : Text) : Option Nat := do
  let digits ← t.mapM CodePoint.hexDigit?
  if digits.isEmpty ∨ digits.any (base ≤ ·) then none else some (numberOfDigits base digits)

/-- A text of decimal digits of any script, with blanks around it; it has no more digits than the
limit. -/
def decimal? (t : Text) : Option Int := do
  let (negative, t) := sign t.strip
  let digits ← t.mapM CodePoint.digit?
  if digits.isEmpty ∨ Json.digitLimit < digits.length then none
  else
    let n : Int := numberOfDigits 10 digits
    some (if negative then -n else n)

def sixties (parts : List Int) : Int := parts.foldl (fun sum part => sum * 60 + part) 0

def magnitude? (t : Text) : Option Int :=
  match t with
  | [.scalar '0'] => some 0
  | .scalar '0' :: .scalar 'b' :: rest => (natural? 2 rest).map Int.ofNat
  | .scalar '0' :: .scalar 'x' :: rest => (natural? 16 rest).map Int.ofNat
  | .scalar '0' :: _ => (natural? 8 t).map Int.ofNat
  | _ =>
    if t.contains (.scalar ':') then
      ((Text.split (.scalar ':') t).mapM decimal?).map sixties
    else decimal? t

def dropUnderscores (t : Text) : Text := t.filter (· ≠ .scalar '_')

def integer (t : Text) : Except Fault Int :=
  let t := dropUnderscores t
  if t.isEmpty then .error .emptyNumber
  else
    let (negative, t) := sign t
    if t.isEmpty then .error .emptyNumber
    else match magnitude? t with
      | none => .error .notNumber
      | some n => .ok (if negative then -n else n)

/-- The sum of floating-point parts in base sixty, the last part first. -/
def realSixties (parts : List Binary64) : Binary64 :=
  (parts.reverse.foldl (fun (sum, base) part =>
    (sum + part * Binary64.ofRat base, base * 60)) ((Binary64.zero false, (1 : Rat)))).1

def realMagnitude? (t : Text) : Option Binary64 :=
  if t = Text.ofString ".inf" then some (.infinite false)
  else if t = Text.ofString ".nan" then some .nan
  else if t.contains (.scalar ':') then
    ((Text.split (.scalar ':') t).mapM Binary64.ofText?).map realSixties
  else Binary64.ofText? t

def real (t : Text) : Except Fault Binary64 :=
  let t := (dropUnderscores t).lower
  if t.isEmpty then .error .emptyNumber
  else
    let (negative, t) := sign t
    match realMagnitude? t with
    | none => .error .notNumber
    | some x => .ok (if negative then -x else x)

end Number

def boolean? (t : Text) : Option Bool :=
  let t := t.lower
  if [Text.ofString "yes", "true", "on"].contains t then some true
  else if [Text.ofString "no", "false", "off"].contains t then some false
  else none

def scalarDatum (tag : Tag) (t : Text) : Except Fault Datum :=
  match tag with
  | .null => .ok .null
  | .boolean =>
    match boolean? t with
    | some value => .ok (.boolean value)
    | none => .error .notBoolean
  | .integer => (Number.integer t).map .integer
  | .real => (Number.real t).map .real
  | .text => .ok (.text t)
  | _ => .error .malformed

/-- An entry of a mapping before its keys are compared. A merged mapping comes as its entries. -/
inductive Part
  | own (key value : Datum)
  | merged (entries : List (Datum × Datum))

def Part.merged? : Part → List (Datum × Datum)
  | merged entries => entries
  | own _ _ => []

def Part.own? : Part → List (Datum × Datum)
  | merged _ => []
  | own key value => [(key, value)]

/-- The entries of a mapping: those that are merged come first. -/
def entriesOf (parts : List Part) : List (Datum × Datum) :=
  Datum.ofPairs (parts.flatMap Part.merged? ++ parts.flatMap Part.own?)

mutual

def Node.datum : Node → Except Fault Datum
  | .scalar tag t => scalarDatum tag t
  | .sequence .sequence items => do return .list (← itemsOf items)
  | .mapping .mapping entries => do return .map (entriesOf (← partsOf entries))
  | _ => .error .malformed

def itemsOf : List Node → Except Fault (List Datum)
  | [] => .ok []
  | item :: items => do return (← item.datum) :: (← itemsOf items)

def partsOf : List (Node × Node) → Except Fault (List Part)
  | [] => .ok []
  | (key, value) :: entries => do
    let part ←
      match key with
      | .scalar .merge _ => do pure (Part.merged (← mergedOf value))
      | .scalar .value t => do pure (Part.own (.text t) (← value.datum))
      | _ => do
        let key ← key.datum
        if key.isKey then pure (Part.own key (← value.datum)) else throw .malformed
    return part :: (← partsOf entries)

/-- The entries of a mapping or of a list of mappings, the first of which prevails. -/
def mergedOf : Node → Except Fault (List (Datum × Datum))
  | .mapping .mapping entries => do return entriesOf (← partsOf entries)
  | .sequence _ items => do
    let maps ← mappingsOf items
    return maps.reverse.flatten
  | _ => .error .malformed

def mappingsOf : List Node → Except Fault (List (List (Datum × Datum)))
  | [] => .ok []
  | .mapping .mapping entries :: items => do
    let entries := entriesOf (← partsOf entries)
    return entries :: (← mappingsOf items)
  | _ :: _ => .error .malformed

end

def read (t : Text) : Except Fault Datum := do
  match ← Node.ofText t with
  | none => return .null
  | some node => node.datum

end Intake.Yaml
