import Intake.Text.Blank
import Intake.Text.Case
import Intake.Text.Quoted

/-! The attributes of a contact that a column can be mapped onto. -/
namespace Intake

/-- How a cell is coerced before it is sent. -/
inductive Kind
  | string
  | number
  | json
  | date
  deriving DecidableEq, Repr

namespace Kind

def name : Kind → Text
  | string => "string"
  | number => "number"
  | json => "json"
  | date => "date"

def ofName? (name : Text) : Option Kind :=
  [string, number, json, date].find? fun kind => kind.name = name

def unknownMessage (name : Text) : Text := name.quoted ++ " is not a valid FieldKind"

end Kind

structure Attribute where
  key : Text
  label : Text
  kind : Kind
  required : Bool
  deriving DecidableEq, Repr

namespace Attribute

def emailKey : Text := "email"

/-- Whether the attribute is one of those that a workspace gives its own meaning. -/
def isCustom (a : Attribute) : Bool := (Text.ofString "custom_").isPrefixOf a.key

def family (key label : Text) (kind : Kind) : List Attribute :=
  (List.range 5).map fun n =>
    ⟨key ++ "_" ++ Text.ofNat (n + 1), label ++ " " ++ Text.ofNat (n + 1), kind, false⟩

def catalogue : List Attribute :=
  [⟨emailKey, "Email", .string, true⟩,
    ⟨"external_id", "External ID", .string, false⟩,
    ⟨"first_name", "First Name", .string, false⟩,
    ⟨"last_name", "Last Name", .string, false⟩,
    ⟨"phone", "Phone", .string, false⟩,
    ⟨"country", "Country", .string, false⟩,
    ⟨"timezone", "Timezone", .string, false⟩,
    ⟨"language", "Language", .string, false⟩,
    ⟨"address_line_1", "Address Line 1", .string, false⟩,
    ⟨"address_line_2", "Address Line 2", .string, false⟩,
    ⟨"postcode", "Postcode", .string, false⟩,
    ⟨"state", "State", .string, false⟩,
    ⟨"job_title", "Job Title", .string, false⟩,
    ⟨"lifetime_value", "Lifetime Value", .number, false⟩,
    ⟨"orders_count", "Orders Count", .number, false⟩,
    ⟨"last_order_at", "Last Order At", .date, false⟩] ++
  family "custom_string" "Custom String" .string ++
  family "custom_number" "Custom Number" .number ++
  family "custom_datetime" "Custom Date" .date ++
  family "custom_json" "Custom JSON" .json

def find? (key : Text) : Option Attribute := catalogue.find? fun a => a.key = key

def isKnown (key : Text) : Bool := (find? key).isSome

/-- The kind of the attribute with a key; an unknown key is coerced as a string. -/
def kindOf (key : Text) : Kind := ((find? key).map (·.kind)).getD .string

/-- Whether a header names the attribute by key or label, in any case and with any blanks around
it. A blank header names none. -/
def isNamedBy (header : Text) (a : Attribute) : Bool :=
  let name := header.strip.lower
  !name.isEmpty && (name = a.key.lower || name = a.label.lower)

def named? (header : Text) (attributes : List Attribute) : Option Attribute :=
  attributes.find? (isNamedBy header)

end Attribute
end Intake
