import Intake.ContactFile
import Intake.Files.Tree
import Intake.Table.Record
import Intake.Text.Quoted

/-! Loading contact files. The first record that counts is the header; each later record is a row,
cut or filled up to the width of the header. -/
namespace Intake

inductive LoadError
  /-- no record that counts -/
  | empty
  | unsupported (suffix : Text)
  | file (path : Path) (error : FileError)
  | encoding (error : EncodingError)
  /-- a quote behind a byte-order mark that has no partner -/
  | unclosedMark
  deriving DecidableEq, Repr

def FileError.message (path : Path) (error : FileError) : Text :=
  let wording : Text := match error with
    | missing => "[Errno 2] No such file or directory"
    | isDirectory => "[Errno 21] Is a directory"
    | notDirectory => "[Errno 20] Not a directory"
    | taken => "[Errno 17] File exists"
    | nameTooLong => "[Errno 36] File name too long"
    | nullByte => "embedded null byte"
    | unencodable => "surrogates not allowed"
  if error.isSystem then wording ++ ": " ++ path.text.quoted else wording

def LoadError.message : LoadError → Text
  | empty => "The CSV file appears to be empty or invalid."
  | unsupported suffix => "Unsupported file extension: " ++ suffix
  | file path error => error.message path
  | encoding .malformed => "invalid bytes"
  | encoding .unmarked => "UTF-16 stream does not start with BOM"
  | unclosedMark => "substring not found"

namespace ContactFile

/-- A row of the given width: cut at its end, or filled up with empty cells. -/
def fit (width : Nat) (row : List Text) : List Text :=
  row.take width ++ List.replicate (width - row.length) []

/-- The records that count. If the very first record is among them, a byte-order mark at its start
is taken off. -/
def countedRecords (records : List (Option Table.Record)) :
    Except LoadError (List Table.Record) :=
  let counted := (records.filterMap id).filter Table.Record.counts
  match records, counted with
  | some first :: _, ⟨line, field :: fields⟩ :: rest =>
    if first.counts then
      match Table.unmark? field with
      | some field => .ok (⟨line, field :: fields⟩ :: rest)
      | none => .error .unclosedMark
    else .ok counted
  | _, _ => .ok counted

/-- The records of a text that count, the header and then the rows, and the width of them all. It is
that of the first record, also where this one is blank without its mark and does not count any more.
-/
def recordsOf (ends : Table.LineEnds) (separator : CodePoint) (t : Text) :
    Except LoadError (Nat × List Table.Record) := do
  let found ← countedRecords (Table.records separator .start 1 1 (Table.lines ends t))
  return ((found.head?.map (·.fields.length)).getD 0, found.filter Table.Record.counts)

def ofText (ends : Table.LineEnds) (separator : CodePoint) (name : Text) (previewSize : Int)
    (t : Text) : Except LoadError ContactFile := do
  match ← recordsOf ends separator t with
  | (_, []) => throw .empty
  | (width, header :: rows) =>
    return ⟨name, fit width header.fields, rows.map fun row => fit width row.fields, previewSize⟩

/-- The file of a text that is in memory. Byte-order marks at its start do not count, and only a
line feed ends a line. -/
def parse (name : Text) (t : Text) (separator : CodePoint) (previewSize : Int) :
    Except LoadError ContactFile :=
  ofText .feed separator name previewSize (t.dropWhile (· = Text.byteOrderMark))

inductive FileEncoding
  | utf8
  | latin1
  | utf16
  deriving DecidableEq

def decode (encoding : FileEncoding) (bytes : Bytes) : Except EncodingError Text :=
  match encoding with
  | .utf8 =>
    match Text.decodeUtf8 false bytes with
    | some (c :: rest) => .ok (if c = Text.byteOrderMark then rest else c :: rest)
    | some [] => .ok []
    | none => .error .malformed
  | .latin1 => .ok (Text.decodeLatin1 bytes)
  | .utf16 => Text.decodeMarkedUtf16 bytes

def separatorOf? (suffix : Text) : Option CodePoint :=
  if suffix.lower = Text.ofString ".csv" then some (.scalar ',')
  else if suffix.lower = Text.ofString ".tsv" then some (.scalar '\t')
  else none

/-- How a file is read. Without a separator its suffix decides. -/
structure LoadOptions where
  separator : Option CodePoint := none
  encoding : FileEncoding := .utf8
  previewSize : Int := defaultPreview

def load (tree : FileTree) (path : Path) (options : LoadOptions) : Except LoadError ContactFile :=
  match separatorOf? path.suffix with
  | none => .error (.unsupported path.suffix)
  | some separator =>
    match tree.read path with
    | .error error => .error (.file path error)
    | .ok bytes =>
      match decode options.encoding bytes with
      | .error error => .error (.encoding error)
      | .ok t => ofText .any (options.separator.getD separator) path.name options.previewSize t

end ContactFile
end Intake
