import Intake.Entries
import Intake.Files.Path
import Intake.Text.Encoding
import Intake.Workbook

/-! A tree of files as a value: what a program finds and leaves in its working directory. The tree
starts there; a path from the root of the machine begins with a name that no file can have. -/
namespace Intake

inductive FileError
  | missing
  | isDirectory
  | notDirectory
  | taken
  | nameTooLong
  /-- a name with a NUL in it -/
  | nullByte
  /-- a name that cannot be encoded -/
  | unencodable
  deriving DecidableEq, Repr

/-- Whether the failure is reported by the system, and not by the reading of the path itself. -/
def FileError.isSystem : FileError → Bool
  | nullByte | unencodable => false
  | _ => true

inductive Content
  | bytes (raw : Bytes)
  | workbook (book : Workbook)
  deriving DecidableEq, Repr

/-- The bytes of a file; those of a workbook are its text. -/
def Content.encode : Content → Bytes
  | bytes raw => raw
  | workbook book => (Text.encodeUtf8 book.text).getD []

inductive Node
  | file (content : Content)
  | directory
  deriving DecidableEq, Repr

/-- Where a node is: the names from the working directory on. -/
abbrev Location := List Text

structure FileTree where
  nodes : Entries Location Node
  deriving Repr

namespace FileTree

def empty : FileTree := ⟨[]⟩

def up : Text := ".."

/-- The directory above a directory. Nothing is above the root of the machine, and what is above the
working directory keeps the names that lead there. -/
def above (location : Location) : Location :=
  if location = [[Path.separator]] then location
  else if location.all (· = up) then location ++ [up]
  else location.dropLast

def under (location : Location) (name : Text) : Location :=
  if name = up then above location else location ++ [name]

/-- The node at a location. The root, the working directory and those above it are directories. -/
def node? (tree : FileTree) (location : Location) : Option Node :=
  if location = [[Path.separator]] ∨ location.all (· = up) then some .directory
  else Entries.get? location tree.nodes

/-- The number of bytes of a name. A surrogate from `0xDC80` to `0xDCFF` stands for a byte that is
no text; any other cannot be written. -/
def nameSize? (name : Text) : Option Nat :=
  name.foldlM (fun size c =>
    match Text.encodePoint c with
    | some bytes => some (size + bytes.length)
    | none => if 0xDC80 ≤ c.value ∧ c.value ≤ 0xDCFF then some (size + 1) else none) 0

/-- A path without what cannot be part of one. -/
def checkNames (p : Path) : Except FileError Unit :=
  if p.parts.any (nameSize? · |>.isNone) then .error .unencodable
  else if p.parts.any (·.contains (.scalar '\x00')) then .error .nullByte
  else .ok ()

def walk (tree : FileTree) (start : Location) : List Text → Except FileError Location
  | [] => .ok start
  | name :: rest =>
    match tree.node? start with
    | none => .error .missing
    | some (.file _) => .error .notDirectory
    | some .directory =>
      if (nameSize? name).getD 256 > 255 then .error .nameTooLong
      else walk tree (under start name) rest

/-- The location that a path leads to; all but its last name must be directories. -/
def locate (tree : FileTree) (p : Path) : Except FileError Location := do
  checkNames p
  walk tree (if p.isAbsolute then [[Path.separator]] else []) p.parts

def find (tree : FileTree) (p : Path) : Except FileError Node := do
  match tree.node? (← tree.locate p) with
  | some node => return node
  | none => throw .missing

def has (tree : FileTree) (p : Path) : Bool := (tree.find p).isOk

def read (tree : FileTree) (p : Path) : Except FileError Bytes := do
  match ← tree.find p with
  | .file content => return content.encode
  | .directory => throw .isDirectory

def place (tree : FileTree) (location : Location) (node : Node) : FileTree :=
  ⟨Entries.put location node tree.nodes⟩

/-- The tree with something stored in a file at a path whose directory exists. -/
def store (tree : FileTree) (p : Path) (content : Content) : Except FileError FileTree := do
  let location ← tree.locate p
  match tree.node? location with
  | some .directory => throw .isDirectory
  | _ => return tree.place location (.file content)

def write (tree : FileTree) (p : Path) (bytes : Bytes) : Except FileError FileTree :=
  tree.store p (.bytes bytes)

/-- The tree without the file at a path; a missing file is no error. -/
def remove (tree : FileTree) (p : Path) : Except FileError FileTree := do
  match tree.locate p with
  | .error .missing => return tree
  | .error error => throw error
  | .ok location =>
    match tree.node? location with
    | none => return tree
    | some .directory => throw .isDirectory
    | some (.file _) => return ⟨Entries.erase location tree.nodes⟩

/-- The tree with one file moved onto a path, which may hold another file. -/
def move (tree : FileTree) (source : Location) (p : Path) : Except FileError FileTree := do
  let location ← tree.locate p
  match tree.node? source, tree.node? location with
  | _, some .directory => throw .isDirectory
  | some node, _ => return ⟨Entries.put location node (Entries.erase source tree.nodes)⟩
  | none, _ => throw .missing

/-- The tree with the directories on the way along some names. -/
def makeAlong (tree : FileTree) (start : Location) : List Text → Except FileError FileTree
  | [] => .ok tree
  | name :: rest =>
    if (nameSize? name).getD 256 > 255 then .error .nameTooLong
    else
      let location := under start name
      match tree.node? location with
      | some .directory => makeAlong tree location rest
      | some (.file _) => .error (if rest.isEmpty then .taken else .notDirectory)
      | none => makeAlong (tree.place location .directory) location rest

def makeDirectory (tree : FileTree) (p : Path) : Except FileError FileTree := do
  checkNames p
  tree.makeAlong (if p.isAbsolute then [[Path.separator]] else []) p.parts

def pathOf : Location → Path
  | first :: rest => if first = [Path.separator] then ⟨first, rest⟩ else ⟨[], first :: rest⟩
  | [] => ⟨[], []⟩

def files (tree : FileTree) : List (Text × Content) :=
  tree.nodes.filterMap fun entry =>
    match entry.2 with
    | .file content => some ((pathOf entry.1).text, content)
    | .directory => none

end FileTree
end Intake
