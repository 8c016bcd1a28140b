import Intake.Files.Tree

/-! Storage of texts under keys, in memory or as files of a directory. A storage may refuse some of
its calls. -/
namespace Intake

inductive Access
  | get
  | set
  | remove
  deriving DecidableEq, Repr

inductive StorageError
  /-- the storage refused the call -/
  | refused (reason : Text)
  | unreadable (path : Path)
  | unwritable (path : Path)
  | undeletable (path : Path)
  /-- a path that the system was not even asked for -/
  | badPath (error : FileError)
  /-- a text that cannot be encoded -/
  | unencodable
  deriving DecidableEq, Repr

/-- Whether the error is the storage's own, and not one of the text or the path that it was given. -/
def StorageError.isPersistence : StorageError → Bool
  | badPath _ | unencodable => false
  | _ => true

def StorageError.message : StorageError → Text
  | refused reason => reason
  | unreadable path => "Could not read " ++ path.text
  | unwritable path => "Could not write " ++ path.text
  | undeletable path => "Could not delete " ++ path.text
  | badPath .nullByte => "embedded null byte"
  | badPath _ | unencodable => "surrogates not allowed"

inductive Medium
  | memory (items : Entries Text Text)
  /-- one file for each key in a directory of the tree -/
  | files (directory : Path) (tree : FileTree)

namespace Medium

/-- The file of a key. A colon cannot be part of its name. -/
def fileOf (directory : Path) (key : Text) : Path :=
  directory.under (Path.ofText (Text.replace (.scalar ':') (.scalar '_') key ++ ".json"))

def report (wrap : Path → StorageError) (path : Path) (error : FileError) : StorageError :=
  if error.isSystem then wrap path else .badPath error

/-- The text of a key, if there is one. Files are read with every line end as a line feed. -/
def get : Medium → Text → Except StorageError (Option Text)
  | memory items, key => .ok (Entries.get? key items)
  | files directory tree, key =>
    let path := fileOf directory key
    match tree.read path with
    | .error .missing => .ok none
    | .error error => .error (report .unreadable path error)
    | .ok bytes =>
      match Text.decodeUtf8 false bytes with
      | some t => .ok (some t.unifyLineEnds)
      | none => .error (.unreadable path)

def temporaryName (n : Nat) : Text := ".tmp-" ++ Text.ofNat n ++ ".json"

/-- A temporary file of a directory that no file has the name of. One of the first names is free,
as there are more of them than files. -/
def freshName (tree : FileTree) (directory : Location) : Text :=
  let names := (List.range (tree.nodes.length + 1)).map temporaryName
  (names.find? fun name => (tree.node? (directory ++ [name])).isNone).getD (temporaryName 0)

/-- What the system is asked for while a text is written. It may refuse any of it, whatever the tree
allows: for want of permission, or of space. -/
inductive WriteStep
  | makeDirectory
  | openTemporary
  | fillTemporary
  | replace
  /-- asked for only if anything else fails -/
  | removeTemporary
  deriving DecidableEq, Repr

/-- Fails for a reason, or for want of leave to take the temporary file away, which then stays. -/
def giveUp (refuses : WriteStep → Bool) (path : Path) (temporary : Location) (reason : StorageError)
    (tree : FileTree) : Option StorageError × FileTree :=
  if refuses .removeTemporary then (some (.unwritable path), tree)
  else (some reason, ⟨Entries.erase temporary tree.nodes⟩)

/-- Writes a text through a temporary file, which is moved onto the file of the key once it is
complete, and taken away if anything fails, be it that the system refuses a step. -/
def setFileUnder (refuses : WriteStep → Bool) (directory : Path) (tree : FileTree)
    (key text : Text) : Option StorageError × FileTree :=
  let path := fileOf directory key
  if refuses .makeDirectory then (some (.unwritable path), tree)
  else match tree.makeDirectory directory with
  | .error error => (some (report .unwritable path error), tree)
  | .ok made =>
    match made.locate directory with
    | .error error => (some (report .unwritable path error), made)
    | .ok location =>
      if refuses .openTemporary then (some (.unwritable path), made)
      else
        let temporary := location ++ [freshName made location]
        let opened := made.place temporary (.file (.bytes []))
        match Text.encodeUtf8 text with
        | none => giveUp refuses path temporary .unencodable opened
        | some bytes =>
          if refuses .fillTemporary then giveUp refuses path temporary (.unwritable path) opened
          else
            let written := opened.place temporary (.file (.bytes bytes))
            if refuses .replace then giveUp refuses path temporary (.unwritable path) written
            else match written.move temporary path with
            | .ok tree => (none, tree)
            | .error error =>
              giveUp refuses path temporary (report .unwritable path error) written

/-- Writing on a system that refuses nothing that the tree allows. -/
def setFile (directory : Path) (tree : FileTree) (key text : Text) :
    Option StorageError × FileTree :=
  setFileUnder (fun _ => false) directory tree key text

def set : Medium → Text → Text → Option StorageError × Medium
  | memory items, key, text => (none, memory (Entries.put key text items))
  | files directory tree, key, text =>
    let (error, tree) := setFile directory tree key text
    (error, files directory tree)

/-- Removes a key; a key that is not there is no error. -/
def remove : Medium → Text → Option StorageError × Medium
  | memory items, key => (none, memory (Entries.erase key items))
  | files directory tree, key =>
    let path := fileOf directory key
    match tree.remove path with
    | .ok tree => (none, files directory tree)
    | .error error => (some (report .undeletable path error), files directory tree)

def tree : Medium → FileTree
  | memory _ => .empty
  | files _ tree => tree

def withTree (tree : FileTree) : Medium → Medium
  | memory items => memory items
  | files directory _ => files directory tree

def size : Medium → Nat
  | memory items => items.length
  | files _ tree => tree.files.length

end Medium

/-- A medium with the calls that it refuses: `refuses n access` is the reason why the n-th call
fails if it is of that kind. -/
structure Storage where
  medium : Medium
  refuses : Nat → Access → Option Text
  calls : Nat

namespace Storage

def of (medium : Medium) : Storage := ⟨medium, fun _ _ => none, 0⟩

def get (s : Storage) (key : Text) : Except StorageError (Option Text) × Storage :=
  let next := { s with calls := s.calls + 1 }
  match s.refuses s.calls .get with
  | some reason => (.error (.refused reason), next)
  | none => (s.medium.get key, next)

def set (s : Storage) (key text : Text) : Option StorageError × Storage :=
  match s.refuses s.calls .set with
  | some reason => (some (.refused reason), { s with calls := s.calls + 1 })
  | none =>
    let (error, medium) := s.medium.set key text
    (error, { s with medium, calls := s.calls + 1 })

def remove (s : Storage) (key : Text) : Option StorageError × Storage :=
  match s.refuses s.calls .remove with
  | some reason => (some (.refused reason), { s with calls := s.calls + 1 })
  | none =>
    let (error, medium) := s.medium.remove key
    (error, { s with medium, calls := s.calls + 1 })

end Storage
end Intake
