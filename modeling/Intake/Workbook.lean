import Intake.Text.Basic

/-! Workbooks: sheets of cells, as far as reports fill them. -/
namespace Intake

namespace Workbook

inductive Cell
  | empty
  | integer (value : Int)
  | text (value : Text)
  deriving DecidableEq, Repr

inductive Fault
  /-- a control character in a cell -/
  | illegalCharacter
  /-- no title of a sheet, or one with a character that it cannot have -/
  | illegalTitle
  deriving DecidableEq, Repr

def Cell.limit : Nat := 32767

/-- Whether a cell can hold a code point: of the control characters only tabs and line ends. -/
def Cell.holds (c : CodePoint) : Bool := 0x20 ≤ c.value || [0x09, 0x0A, 0x0D].contains c.value

/-- The cell of a text, which is cut at the limit. A text without characters leaves it empty. -/
def Cell.ofText (t : Text) : Except Fault Cell :=
  let kept := t.take limit
  if kept.all holds then .ok (if kept.isEmpty then empty else text kept)
  else .error .illegalCharacter

def Cell.content : Cell → Text
  | empty => []
  | integer value => Text.ofInt value
  | text value => value

structure Sheet where
  title : Text
  rows : List (List Cell)
  deriving DecidableEq, Repr

def Sheet.reserved : Text := ['[', ']', ':', '*', '?', '/', '\\'].map CodePoint.scalar

def Sheet.make (title : Text) (rows : List (List Cell)) : Except Fault Sheet :=
  if title.isEmpty || title.any (Sheet.reserved.contains ·) then .error .illegalTitle else .ok ⟨title, rows⟩

end Workbook

structure Workbook where
  sheets : List Workbook.Sheet
  deriving DecidableEq, Repr

/-- The cells as text: tabs between those of a row, and a line for each row. -/
def Workbook.text (workbook : Workbook) : Text :=
  workbook.sheets.flatMap fun sheet =>
    sheet.rows.flatMap fun row => Text.join "\t" (row.map Cell.content) ++ "\n"

end Intake
