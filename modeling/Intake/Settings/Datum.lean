import Intake.Json.Basic
import Intake.Text.Encoding

/-! Data of a configuration: like JSON values, but the keys of a map may be data too, and there are
the further kinds of YAML. -/
namespace Intake

inductive Datum
  | null
  | boolean (value : Bool)
  | integer (value : Int)
  | real (value : Binary64)
  | text (value : Text)
  | list (items : List Datum)
  | map (entries : List (Datum × Datum))
  | bytes (value : Bytes)
  /-- a date, with a time of the day or without one, in the one spelling of its value -/
  | moment (value : Text)
  | set (members : List Datum)
  deriving Inhabited

namespace Datum

/-- The number that a datum counts as where keys are compared: truth is one and falsehood zero. -/
def number? : Datum → Option Rat
  | boolean value => some (if value then 1 else 0)
  | integer value => some value
  | real value => value.toRat?
  | _ => none

/-- Whether two data are the same key. Numbers are compared by value; collections are no keys. -/
def sameKey (a b : Datum) : Bool :=
  match a, b with
  | null, null => true
  | text s, text t | moment s, moment t => s == t
  | bytes s, bytes t => s == t
  | real x, real y =>
    match x.toRat?, y.toRat? with
    | some p, some q => p == q
    | none, none => x == y
    | _, _ => false
  | _, _ =>
    match a.number?, b.number? with
    | some p, some q => p == q
    | _, _ => false

def isKey : Datum → Bool
  | list _ | map _ | set _ => false
  | _ => true

/-- Writes a key, which keeps the place and the spelling that it had first. -/
def put (key value : Datum) : List (Datum × Datum) → List (Datum × Datum)
  | [] => [(key, value)]
  | entry :: rest =>
    if sameKey entry.1 key then (entry.1, value) :: rest else entry :: put key value rest

/-- The entries of a list of pairs in which a key may be written more than once. -/
def ofPairs (pairs : List (Datum × Datum)) : List (Datum × Datum) :=
  pairs.foldl (fun entries pair => put pair.1 pair.2 entries) []

def get? (key : Text) (entries : List (Datum × Datum)) : Option Datum :=
  (entries.find? fun entry => sameKey entry.1 (.text key)).map (·.2)

/-- Whether a datum says nothing: null, falsehood, zero, or nothing within. -/
def isVoid : Datum → Bool
  | null => true
  | boolean value => !value
  | integer value => value == 0
  | real value => value.isZero
  | text value => value.isEmpty
  | list items | set items => items.isEmpty
  | map entries => entries.isEmpty
  | bytes value => value.isEmpty
  | moment _ => false

mutual

def ofJson : Json → Datum
  | .null => null
  | .boolean value => boolean value
  | .integer value => integer value
  | .real value => real value
  | .text value => text value
  | .list items => list (ofJsonItems items)
  | .object entries => map (ofJsonEntries entries)

def ofJsonItems : List Json → List Datum
  | [] => []
  | item :: items => ofJson item :: ofJsonItems items

def ofJsonEntries : List (Text × Json) → List (Datum × Datum)
  | [] => []
  | (key, value) :: entries => (text key, ofJson value) :: ofJsonEntries entries

end

end Datum
end Intake
