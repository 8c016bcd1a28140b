import Intake.Files.Tree
import Intake.Run.State
import Intake.Settings.Datum
import Intake.Table.Writer

/-! Reports of rejected rows: the entries of an error log as a table, written to a file with
separated fields or to a workbook. The suffix of the file decides which. -/
namespace Intake

inductive ReportError
  | unsupported (suffix : Text)
  | file (error : FileError)
  /-- an option that the format does not have, or of the wrong kind -/
  | badOption
  /-- a column that a report does not have -/
  | missingColumn
  /-- other names of the columns than there are columns -/
  | headingSize
  | unencodable
  | workbook (fault : Workbook.Fault)
  deriving DecidableEq, Repr

def ReportError.message : ReportError → Text
  | unsupported suffix => "Unsupported export file extension: " ++ suffix
  | file _ => "the report could not be written"
  | badOption => "an option does not fit the report"
  | missingColumn => "a column is not one of the report"
  | headingSize => "the names do not fit the columns of the report"
  | unencodable => "surrogates not allowed"
  | workbook .illegalCharacter => "a cell cannot hold a control character"
  | workbook .illegalTitle => "the title of a sheet is empty or has a reserved character"

namespace Report

inductive Column
  | line
  | email
  | error
  deriving DecidableEq, Repr

namespace Column

def all : List Column := [line, email, error]

def name : Column → Text
  | line => "line"
  | email => "email"
  | error => "error"

def text (entry : ErrorEntry) : Column → Text
  | line => Text.ofInt entry.line
  | email => entry.email
  | error => entry.message

def cell (entry : ErrorEntry) : Column → Except Workbook.Fault Workbook.Cell
  | line => .ok (.integer entry.line)
  | email => Workbook.Cell.ofText entry.email
  | error => Workbook.Cell.ofText entry.message

end Column

inductive Format
  | separated (separator : CodePoint)
  | workbook
  deriving DecidableEq, Repr

def formatOf? (suffix : Text) : Option Format :=
  if suffix = Text.ofString ".csv" then some (.separated (.scalar ','))
  else if suffix = Text.ofString ".tsv" then some (.separated (.scalar '\t'))
  else if suffix = Text.ofString ".xlsx" ∨ suffix = Text.ofString ".xlsm" then some .workbook
  else none

/-- What stands above the rows: the names of the columns, nothing, or other names. -/
inductive Heading
  | usual
  | none
  | names (names : List Text)
  deriving DecidableEq, Repr

structure Layout where
  columns : List Column := Column.all
  heading : Heading := .usual
  /-- what separates fields; nothing but a single character can -/
  separator : Option Text := none
  deriving DecidableEq, Repr

def textsOf? (items : List Datum) : Option (List Text) :=
  items.mapM fun
    | .text t => some t
    | _ => none

def optionsOf : Format → List Text
  | .separated _ => ["sep", "header", "columns"]
  | .workbook => ["header", "columns", "engine"]

def columnsOf (options : List (Datum × Datum)) : Except ReportError (List Column) :=
  match Datum.get? "columns" options with
  | none | some .null => .ok Column.all
  | some (.list items) =>
    match (textsOf? items).bind fun names => names.mapM fun name =>
        Column.all.find? fun column => column.name = name with
    | some columns => .ok columns
    | none => .error .missingColumn
  | some _ => .error .badOption

def headingOf (options : List (Datum × Datum)) : Except ReportError Heading :=
  match Datum.get? "header" options with
  | none | some (.boolean true) => .ok .usual
  | some (.boolean false) => .ok .none
  | some (.list items) =>
    match textsOf? items with
    | some names => .ok (.names names)
    | none => .error .badOption
  | some _ => .error .badOption

def separatorOf (options : List (Datum × Datum)) : Except ReportError (Option Text) :=
  match Datum.get? "sep" options with
  | none => .ok none
  | some (.text t) => .ok (some t)
  | some _ => .error .badOption

/-- The layout that some options give. A workbook has one engine, which nothing else replaces. -/
def layoutOf (format : Format) (options : List (Datum × Datum)) : Except ReportError Layout := do
  let known := options.all fun entry =>
    match entry.1 with
    | .text name => (optionsOf format).contains name
    | _ => false
  if !known then throw .badOption
  let columns ← columnsOf options
  if format = .workbook ∧ columns.isEmpty then throw .missingColumn
  return ⟨columns, ← headingOf options, ← separatorOf options⟩

def headingRow (layout : Layout) : Except ReportError (List (List Text)) :=
  match layout.heading with
  | .usual => .ok [layout.columns.map Column.name]
  | .none => .ok []
  | .names names =>
    if names.length = layout.columns.length then .ok [names] else .error .headingSize

def separatedText (separator : CodePoint) (layout : Layout) (entries : List ErrorEntry) :
    Except ReportError Text := do
  let separator ←
    match layout.separator with
    | none => pure separator
    | some [c] => pure c
    | some _ => throw .badOption
  let heading ← headingRow layout
  return Table.write separator
    (heading ++ entries.map fun entry => layout.columns.map (Column.text entry))

/-- The cells of a report in the order in which they are filled: those above the rows, and then
column by column. -/
def cells (heading : List (List Text)) (columns : List Column) (entries : List ErrorEntry) :
    List (Except Workbook.Fault Workbook.Cell) :=
  heading.flatten.map Workbook.Cell.ofText ++
    columns.flatMap fun column => entries.map fun entry => column.cell entry

/-- The cells up to the first that cannot be made, and why it cannot. -/
def takeCells : List (Except Workbook.Fault Workbook.Cell) →
    List Workbook.Cell × Option Workbook.Fault
  | [] => ([], none)
  | .error fault :: _ => ([], some fault)
  | .ok cell :: rest =>
    let (cells, fault?) := takeCells rest
    (cell :: cells, fault?)

/-- The rows of a sheet whose cells were filled in their order; the others are empty. -/
def rowsOf (headings columns entries : Nat) (cells : List Workbook.Cell) :
    List (List Workbook.Cell) :=
  let row (start step : Nat) : List Workbook.Cell :=
    (List.range columns).map fun column => cells[start + column * step]?.getD .empty
  (List.range headings).map (fun n => row (n * columns) 1) ++
    (List.range entries).map fun n => row (headings * columns + n) entries

/-- A report as the only sheet of a workbook, with the cells up to the first that cannot be made. -/
def workbookOf (title : Text) (columns : List Column) (heading : List (List Text))
    (entries : List ErrorEntry) : Option Workbook.Fault × Workbook :=
  let (cells, fault?) := takeCells (cells heading columns entries)
  match Workbook.Sheet.make title (rowsOf heading.length columns.length entries.length cells) with
  | .ok sheet => (fault?, ⟨[sheet]⟩)
  | .error fault => (some fault, ⟨[]⟩)

/-- What the file of a report holds in the end, and why it is not the whole report. -/
def contentOf (format : Format) (title : Text) (layout : Layout) (entries : List ErrorEntry) :
    Option ReportError × Content :=
  match format with
  | .separated separator =>
    match separatedText separator layout entries with
    | .error error => (some error, .bytes [])
    | .ok text =>
      match Text.encodeUtf8 text with
      | some bytes => (none, .bytes bytes)
      | none => (some .unencodable, .bytes [])
  | .workbook =>
    match headingRow layout with
    | .error error => (some error, .workbook ⟨[]⟩)
    | .ok heading =>
      let (fault?, workbook) := workbookOf title layout.columns heading entries
      (fault?.map .workbook, .workbook workbook)

def defaultTitle : Text := "Errors"

/-- Writes a report to a file whose directories are made where they are missing. A leading tilde
stands for the home directory once they are made. -/
def write (tree : FileTree) (home path : Path) (title : Text) (options : List (Datum × Datum))
    (entries : List ErrorEntry) : Except ReportError Unit × FileTree :=
  match tree.makeDirectory path.parent with
  | .error error => (.error (.file error), tree)
  | .ok tree =>
    match formatOf? path.suffix.lower with
    | none => (.error (.unsupported path.suffix.lower), tree)
    | some format =>
      match layoutOf format options with
      | .error error => (.error error, tree)
      | .ok layout =>
        let (error?, content) := contentOf format title layout entries
        match tree.store (path.expandHome home) content, error? with
        | .error error, _ => (.error (.file error), tree)
        | .ok tree, some error => (.error error, tree)
        | .ok tree, none => (.ok (), tree)

end Report
end Intake
