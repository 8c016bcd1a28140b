import Intake.Json.Basic
import Intake.Number.Numeral

/-! Writing JSON. Stored progress is ASCII with a blank after each comma and colon; a request body
is compact, keeps all printable text, and has no place for a value that is no finite number. -/
namespace Intake.Json

structure Layout where
  comma : Text
  colon : Text
  /-- whether all but ASCII is escaped -/
  ascii : Bool
  /-- whether values that are no finite number are written, by their names -/
  unbounded : Bool

/-- The form of stored progress. -/
def stored : Layout := ⟨", ", ": ", true, true⟩

/-- The form of a request body. -/
def compact : Layout := ⟨",", ":", false, false⟩

inductive WriteError
  /-- a value that is no finite number -/
  | unbounded
  /-- an integer with more digits than the limit -/
  | digits
  deriving DecidableEq, Repr

def unitEscape (n : Nat) : Text := "\\u" ++ Text.hex 4 n

def writePoint (ascii : Bool) (c : CodePoint) : Text :=
  match c with
  | .scalar '"' => "\\\""
  | .scalar '\\' => "\\\\"
  | .scalar '\n' => "\\n"
  | .scalar '\r' => "\\r"
  | .scalar '\t' => "\\t"
  | .scalar '\x08' => "\\b"
  | .scalar '\x0C' => "\\f"
  | _ =>
    let n := c.value
    if n < 0x20 then unitEscape n
    else if n < 0x7F ∨ !ascii then [c]
    else if n < 0x10000 then unitEscape n
    else unitEscape (0xD800 + (n - 0x10000) / 0x400) ++ unitEscape (0xDC00 + (n - 0x10000) % 0x400)

def writeString (ascii : Bool) (t : Text) : Text :=
  .scalar '"' :: t.flatMap (writePoint ascii) ++ [.scalar '"']

def writeInteger (i : Int) : Except WriteError Text :=
  if Nat.pow 10 digitLimit ≤ i.natAbs then .error .digits else .ok (Text.ofInt i)

def writeReal (unbounded : Bool) (x : Binary64) : Except WriteError Text :=
  match x with
  | .finite .. => .ok x.text
  | .nan => if unbounded then .ok "NaN" else .error .unbounded
  | .infinite negative =>
    if unbounded then .ok (if negative then "-Infinity" else "Infinity") else .error .unbounded

mutual

def write (layout : Layout) : Json → Except WriteError Text
  | null => .ok "null"
  | boolean value => .ok (if value then "true" else "false")
  | integer value => writeInteger value
  | real value => writeReal layout.unbounded value
  | text value => .ok (writeString layout.ascii value)
  | list items => do
    let items ← writeItems layout items
    return [.scalar '['] ++ Text.join layout.comma items ++ [.scalar ']']
  | object entries => do
    let entries ← writeEntries layout entries
    return [.scalar '\x7b'] ++ Text.join layout.comma entries ++ [.scalar '\x7d']

def writeItems (layout : Layout) : List Json → Except WriteError (List Text)
  | [] => .ok []
  | item :: items => do return (← write layout item) :: (← writeItems layout items)

def writeEntries (layout : Layout) : List (Text × Json) → Except WriteError (List Text)
  | [] => .ok []
  | (key, value) :: entries => do
    let value ← write layout value
    return (writeString layout.ascii key ++ layout.colon ++ value) :: (← writeEntries layout entries)

end

end Intake.Json
