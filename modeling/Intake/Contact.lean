import Intake.Cell
import Intake.ContactFile
import Intake.Mapping

/-! Contacts: the values that one row of a file gives to the mapped attributes. -/
namespace Intake

/-- Attribute keys with their values, in the order of the mapping. -/
abbrev Contact := Entries Text Json

/-- A cell that became null, with the kind it was coerced by. -/
structure Discard where
  kind : Kind
  why : Rejection

namespace Contact

/-- The cells that a row discards up to an error, and the contact of the row. A key whose column is
missing from the file or the row is left out. -/
def read (dates : Dates) (file : ContactFile) (row : List Text) :
    Mapping → List Discard × Except OversizedInteger Contact
  | [] => ([], .ok [])
  | (key, header) :: rest =>
    match (file.column? header).bind (row[·]?) with
    | none => read dates file row rest
    | some cell =>
      let kind := Attribute.kindOf key
      match kind.readCell dates cell with
      | .error error => ([], .error error)
      | .ok (value, why) =>
        let (discards, contact) := read dates file row rest
        ((why.map (Discard.mk kind)).toList ++ discards, contact.map ((key, value) :: ·))

def build (dates : Dates) (file : ContactFile) (row : List Text) (mapping : Mapping) :
    Except OversizedInteger Contact :=
  (read dates file row mapping).2

def email? (contact : Contact) : Option Text :=
  match Entries.get? Attribute.emailKey contact with
  | some (.text (c :: rest)) => some (c :: rest)
  | _ => none

end Contact
end Intake
