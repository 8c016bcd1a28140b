import Intake.Json.Reader
import Intake.Json.Spelling
import Intake.Mapping

/-! Checkpoints: the progress of an import as it is stored, and as JSON. -/
namespace Intake

structure Checkpoint where
  fileName : Text
  row : Int
  totalRows : Int
  batch : Int
  totalBatches : Int
  mapping : Mapping
  lists : List Text
  /-- milliseconds since the start of 1970 -/
  savedAt : Int
  deriving DecidableEq, Repr

/-- Progress as a caller hands it in to be saved: what stands for a number, a header or a list may
be any value. -/
structure Draft where
  fileName : Text
  row : Json
  totalRows : Json
  batch : Json
  totalBatches : Json
  mapping : Entries Text Json
  lists : List Json

namespace Draft

def toJson (draft : Draft) (savedAt : Int) : Json :=
  .object
    [("fileName", .text draft.fileName),
      ("currentRow", draft.row),
      ("totalRows", draft.totalRows),
      ("currentBatch", draft.batch),
      ("totalBatches", draft.totalBatches),
      ("mappings", .object draft.mapping),
      ("selectedListIds", .list draft.lists),
      ("timestamp", .integer savedAt)]

end Draft

inductive DecodeError
  | notObject
  | fileName
  | mappings
  | lists
  | notNumber (key : Text)
  | notFinite (key : Text)
  /-- an integer beyond the range of floating point -/
  | overflow (key : Text)
  deriving DecidableEq, Repr

def DecodeError.message : DecodeError → Text
  | notObject => "checkpoint payload must be an object"
  | fileName => "fileName must be a string"
  | mappings => "mappings must be an object"
  | lists => "selectedListIds must be a list"
  | notNumber key => key ++ " must be a number"
  | notFinite key => key ++ " must be finite"
  | overflow _ => "int too large to convert to float"

namespace Checkpoint

def draft (c : Checkpoint) : Draft :=
  ⟨c.fileName, .integer c.row, .integer c.totalRows, .integer c.batch, .integer c.totalBatches,
    c.mapping.map fun entry => (entry.1, .text entry.2), c.lists.map .text⟩

def toJson (c : Checkpoint) : Json := c.draft.toJson c.savedAt

/-- The number under a key, its fraction cut off. -/
def decodeNumber (data : Json) (key : Text) : Except DecodeError Int :=
  match data.get? key with
  | some (.integer i) => if (Binary64.ofInt? i).isSome then .ok i else .error (.overflow key)
  | some (.real x) =>
    match x.truncate? with
    | some i => .ok i
    | none => .error (.notFinite key)
  | _ => .error (.notNumber key)

/-- The entries whose value is a text that is not empty. -/
def decodeMapping (entries : Entries Text Json) : Mapping :=
  entries.filterMap fun entry =>
    match entry.2 with
    | .text (c :: rest) => some (entry.1, c :: rest)
    | _ => none

/-- Reads the stored form. Values that are not asked for do not count. -/
def ofJson (data : Json) : Except DecodeError Checkpoint := do
  let .object _ := data | throw .notObject
  let some (.text fileName) := data.get? "fileName" | throw .fileName
  let some (.object mappings) := data.get? "mappings" | throw .mappings
  let some (.list lists) := data.get? "selectedListIds" | throw .lists
  let row ← decodeNumber data "currentRow"
  let totalRows ← decodeNumber data "totalRows"
  let batch ← decodeNumber data "currentBatch"
  let totalBatches ← decodeNumber data "totalBatches"
  let savedAt ← decodeNumber data "timestamp"
  return ⟨fileName, row, totalRows, batch, totalBatches, decodeMapping mappings,
    lists.map Json.spell, savedAt⟩

end Checkpoint
end Intake
