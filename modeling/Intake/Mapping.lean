import Intake.Attribute
import Intake.Entries

/-! The mapping of attributes onto the headers of a file: which column fills which attribute. -/
namespace Intake

/-- Attribute keys with their headers, in the order in which they were mapped. -/
abbrev Mapping := Entries Text Text

inductive MappingError
  | unknownAttribute (key : Text)
  | emailUnmapped
  | emailColumnMissing (header : Text)
  deriving DecidableEq, Repr

def MappingError.message : MappingError → Text
  | unknownAttribute key => "Unknown contact attribute '" ++ key ++ "'"
  | emailUnmapped => "Email field mapping is required"
  | emailColumnMissing header =>
    "Email is mapped to '" ++ header ++ "', which is not a column of this file"

namespace Mapping

/-- The mapping by name: each header goes to the attribute it names, if no earlier header did. -/
def suggest (headers : List Text) : Mapping :=
  headers.foldl (fun mapping header =>
    match Attribute.named? header Attribute.catalogue with
    | some a => if (Entries.get? a.key mapping).isSome then mapping else mapping ++ [(a.key, header)]
    | none => mapping) []

/-- Maps a key onto a header, which is taken from whichever key had it; without a header the key is
unmapped. -/
def assign (key : Text) (header : Option Text) (mapping : Mapping) : Except MappingError Mapping :=
  if !Attribute.isKnown key then .error (.unknownAttribute key)
  else match header with
    | none | some [] => .ok (Entries.erase key mapping)
    | some header =>
      .ok (Entries.put key header
        (mapping.filter fun entry => entry.2 ≠ header || entry.1 = key))

def keyFor? (header : Text) (mapping : Mapping) : Option Text :=
  (mapping.find? fun entry => entry.2 = header).map (·.1)

def unmapped (headers : List Text) (mapping : Mapping) : List Text :=
  headers.filter fun header => !(Entries.values mapping).contains header

def emailFirst (mapping : Mapping) : Mapping :=
  mapping.filter (fun entry => entry.1 = Attribute.emailKey) ++
    mapping.filter (fun entry => entry.1 ≠ Attribute.emailKey)

/-- Whether an entry can be kept beside those kept already: its key is in the catalogue, and its
header is a column of the file that no kept entry has. -/
def keeps (headers : List Text) (kept : Mapping) (entry : Text × Text) : Bool :=
  Attribute.isKnown entry.1 && !entry.2.isEmpty && headers.contains entry.2 &&
    !(Entries.values kept).contains entry.2

/-- The entries that fit the headers of a file, and the keys of the others. -/
def restrict (headers : List Text) (mapping : Mapping) : Mapping × List Text :=
  (emailFirst mapping).foldl (fun (kept, dropped) entry =>
    if keeps headers kept entry then (kept ++ [entry], dropped)
    else (kept, dropped ++ [entry.1])) ([], [])

def isRunnable (headers : List Text) (mapping : Mapping) : Bool :=
  match Entries.get? Attribute.emailKey mapping with
  | some header => !header.isEmpty && headers.contains header
  | none => false

/-- The part of a mapping that a run can use, and the keys it drops. -/
def validate (headers : List Text) (mapping : Mapping) :
    Except MappingError (Mapping × List Text) :=
  match Entries.get? Attribute.emailKey mapping with
  | none | some [] => .error .emailUnmapped
  | some header =>
    if isRunnable headers mapping then .ok (restrict headers mapping)
    else .error (.emailColumnMissing header)

end Mapping
end Intake
