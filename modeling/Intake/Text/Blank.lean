import Intake.Text.Basic

/-! Blank code points, and texts without the blanks around them. -/
namespace Intake

def blankTable : List (Nat × Nat) :=
  [(0x85, 0x85), (0xA0, 0xA0), (0x1680, 0x1680), (0x2000, 0x200A), (0x2028, 0x2029),
    (0x202F, 0x202F), (0x205F, 0x205F), (0x3000, 0x3000)]

/-- White space and line separators: the controls from tab to carriage return, the four
information separators, the space, and the blanks outside ASCII. -/
def CodePoint.isBlank (c : CodePoint) : Bool :=
  let n := c.value
  if n < 0x80 then n == 0x20 || (0x09 ≤ n && n ≤ 0x0D) || (0x1C ≤ n && n ≤ 0x1F)
  else blankTable.any fun range => range.1 ≤ n && n ≤ range.2

namespace Text

def stripEnd (t : Text) : Text := (t.reverse.dropWhile CodePoint.isBlank).reverse

def strip (t : Text) : Text := stripEnd (t.dropWhile CodePoint.isBlank)

def isBlank (t : Text) : Bool := t.all CodePoint.isBlank

end Text
end Intake
