import Intake.Text.Blank

/-! A contact file: the header of a table and its rows of cells. -/
namespace Intake

structure ContactFile where
  name : Text
  headers : List Text
  rows : List (List Text)
  /-- how many rows the preview shows, counted from the end if negative -/
  previewSize : Int
  deriving Repr

namespace ContactFile

def defaultPreview : Int := 15

def totalRows (file : ContactFile) : Nat := file.rows.length

/-- The first rows; a negative size leaves out as many at the end. -/
def preview (file : ContactFile) : List (List Text) :=
  if 0 ≤ file.previewSize then file.rows.take file.previewSize.toNat
  else file.rows.take (file.rows.length - file.previewSize.natAbs)

def column? (file : ContactFile) (header : Text) : Option Nat :=
  file.headers.findIdx? (· = header)

/-- Whether a header that is not empty is one of the file. -/
def hasHeader (file : ContactFile) (header : Option Text) : Bool :=
  match header with
  | none | some [] => false
  | some header => file.headers.contains header

/-- The first cells of a column that are not blank, stripped. -/
def samples (file : ContactFile) (header : Text) (limit : Int) : List Text :=
  match file.column? header with
  | none => []
  | some index =>
    (file.rows.filterMap fun row =>
      let cell := Text.strip (row[index]?.getD [])
      if cell.isEmpty then none else some cell).take limit.toNat

end ContactFile
end Intake
