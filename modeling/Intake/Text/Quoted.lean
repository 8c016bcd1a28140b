import Intake.Text.Printable

/-! Quoted texts inside a spelled-out list: between single quotes, or between double ones if the
text holds a single quote and no double one; what is not printable is escaped. -/
namespace Intake.Text

/-- The escape of a code point by its number: two, four or eight digits. -/
def escape (n : Nat) : Text :=
  if n ≤ 0xFF then "\\x" ++ hex 2 n
  else if n ≤ 0xFFFF then "\\u" ++ hex 4 n
  else "\\U" ++ hex 8 n

def quotePoint (quote c : CodePoint) : Text :=
  if c = quote then [.scalar '\\', c]
  else match c with
    | .scalar '\\' => "\\\\"
    | .scalar '\n' => "\\n"
    | .scalar '\r' => "\\r"
    | .scalar '\t' => "\\t"
    | _ => if c.isPrintable then [c] else escape c.value

def quoted (t : Text) : Text :=
  let quote : CodePoint :=
    if t.contains (.scalar '\'') && !t.contains (.scalar '"') then .scalar '"' else .scalar '\''
  quote :: t.flatMap (quotePoint quote) ++ [quote]

end Intake.Text
