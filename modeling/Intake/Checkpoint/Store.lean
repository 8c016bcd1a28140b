import Intake.Checkpoint.Basic
import Intake.Checkpoint.Storage
import Intake.Digest.Sha256
import Intake.Json.Writer
import Intake.Number.Quantity

/-! The store of checkpoints, one for each pair of a workspace and a file name. Saving never fails
for its caller, and what is unreadable, foreign, out of bounds or stale is not offered. -/
namespace Intake

/-- The text whose digest tells pairs apart: both names as a JSON list, so that no character of one
can be taken for part of the other. -/
def pairText (workspace fileName : Text) : Text :=
  "[" ++ Json.writeString true workspace ++ ", " ++ Json.writeString true fileName ++ "]"

def progressKey (workspace fileName : Text) : Text :=
  "csv_upload_progress:" ++ Sha256.digest ((Text.encodeUtf8 (pairText workspace fileName)).getD [])

inductive SaveError
  | storage (error : StorageError)
  | value (error : Json.WriteError)
  deriving DecidableEq, Repr

inductive Refusal
  /-- the stored text, which is no JSON -/
  | unreadable (source : Text) (error : Json.ReadError)
  | undecodable (error : DecodeError)
  | otherFile (fileName : Text)
  | outside (row totalRows : Int)
  | stale
  deriving DecidableEq, Repr

/-- A failure of loading that the store does not settle. -/
inductive LoadFailure
  /-- stored values nested too deeply -/
  | nested
  /-- a stored number beyond the range of floating point -/
  | overflow
  | storage (error : StorageError)
  deriving DecidableEq, Repr

def LoadFailure.message : LoadFailure → Text
  | nested => "stored values are nested too deeply"
  | overflow => "a stored number is too large"
  | storage error => error.message

inductive StoreEvent
  | saved (fileName : Text) (row totalRows : Json) (text : Text)
  | saveFailed (workspace fileName : Text) (error : SaveError)
  | loadFailed (fileName : Text) (error : StorageError)
  | refused (fileName : Text) (why : Refusal)
  | cleared (fileName : Text)
  | clearFailed (fileName : Text) (error : StorageError)

structure ProgressStore where
  storage : Storage
  /-- how many milliseconds saved progress stays fresh -/
  freshness : Int
  /-- the time since the start of 1970, in the milliseconds that `Quantity.millis` makes of a clock -/
  now : Int

namespace ProgressStore

/-- The usual window, a week. -/
def defaultFreshness : Int := 604800000

/-- Saves a draft under its pair, stamped with the time. Answers whether it was saved. -/
def saveDraft (store : ProgressStore) (workspace fileName : Text) (draft : Draft) :
    Bool × StoreEvent × ProgressStore :=
  match (draft.toJson store.now).write Json.stored with
  | .error error => (false, .saveFailed workspace fileName (.value error), store)
  | .ok text =>
    match store.storage.set (progressKey workspace fileName) text with
    | (some error, storage) =>
      (false, .saveFailed workspace fileName (.storage error), { store with storage })
    | (none, storage) =>
      (true, .saved fileName draft.row draft.totalRows text, { store with storage })

def save (store : ProgressStore) (workspace fileName : Text) (checkpoint : Checkpoint) :
    Bool × StoreEvent × ProgressStore :=
  store.saveDraft workspace fileName checkpoint.draft

/-- The checkpoint of a stored text. A failure that is not settled is on the outside. -/
def decode (text : Text) : Except LoadFailure (Except Refusal Checkpoint) :=
  match Json.read text with
  | .error .nested => .error .nested
  | .error error => .ok (.error (.unreadable text error))
  | .ok data =>
    match Checkpoint.ofJson data with
    | .error (.overflow _) => .error .overflow
    | .error error => .ok (.error (.undecodable error))
    | .ok checkpoint => .ok (.ok checkpoint)

def accept (store : ProgressStore) (fileName : Text) (c : Checkpoint) :
    Except Refusal Checkpoint :=
  if c.fileName ≠ fileName then .error (.otherFile c.fileName)
  else if ¬ (0 ≤ c.row ∧ c.row < c.totalRows) then .error (.outside c.row c.totalRows)
  else if store.freshness ≤ store.now - c.savedAt then .error .stale
  else .ok c

def offer (store : ProgressStore) (fileName text : Text) :
    Except LoadFailure (Except Refusal Checkpoint) :=
  (decode text).map fun decoded => decoded.bind (store.accept fileName)

def load (store : ProgressStore) (workspace fileName : Text) :
    Except LoadFailure (Option Checkpoint) × List StoreEvent × ProgressStore :=
  match store.storage.get (progressKey workspace fileName) with
  | (.error error, storage) =>
    let store := { store with storage }
    if error.isPersistence then (.ok none, [.loadFailed fileName error], store)
    else (.error (.storage error), [], store)
  | (.ok none, storage) => (.ok none, [], { store with storage })
  | (.ok (some text), storage) =>
    let store := { store with storage }
    match store.offer fileName text with
    | .error failure => (.error failure, [], store)
    | .ok (.error why) => (.ok none, [.refused fileName why], store)
    | .ok (.ok checkpoint) => (.ok (some checkpoint), [], store)

def clear (store : ProgressStore) (workspace fileName : Text) : StoreEvent × ProgressStore :=
  match store.storage.remove (progressKey workspace fileName) with
  | (some error, storage) => (.clearFailed fileName error, { store with storage })
  | (none, storage) => (.cleared fileName, { store with storage })

end ProgressStore
end Intake
