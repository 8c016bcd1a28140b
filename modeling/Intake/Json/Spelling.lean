import Intake.Json.Basic
import Intake.Number.Numeral
import Intake.Text.Quoted

/-! The spelling of a JSON value where a text is wanted: a list identifier that is stored as some
other value is known by its spelling. A text stands for itself on its own and is quoted inside a
list or an object. -/
namespace Intake.Json

mutual

def spellQuoted : Json → Text
  | null => "None"
  | boolean value => if value then "True" else "False"
  | integer value => Text.ofInt value
  | real value => value.text
  | text value => value.quoted
  | list items => [.scalar '['] ++ Text.join ", " (spellItems items) ++ [.scalar ']']
  | object entries => [.scalar '\x7b'] ++ Text.join ", " (spellEntries entries) ++ [.scalar '\x7d']

def spellItems : List Json → List Text
  | [] => []
  | item :: items => spellQuoted item :: spellItems items

def spellEntries : List (Text × Json) → List Text
  | [] => []
  | (key, value) :: entries => (key.quoted ++ ": " ++ spellQuoted value) :: spellEntries entries

end

def spell : Json → Text
  | text value => value
  | value => spellQuoted value

end Intake.Json
