import Intake.Text.Basic

/-! Writing records of separated fields. A field is quoted if it holds the separator, a quote or a
line feed; the quotes inside are doubled. -/
namespace Intake.Table

def needsQuotes (separator : CodePoint) (field : Text) : Bool :=
  field.any fun c => c = separator || c = .scalar '"' || c = .scalar '\n'

def quoteField (field : Text) : Text :=
  [.scalar '"'] ++ (field.flatMap fun c => if c = .scalar '"' then [c, c] else [c]) ++ [.scalar '"']

def writeField (separator : CodePoint) (field : Text) : Text :=
  if needsQuotes separator field then quoteField field else field

/-- The line of a record. A single empty field is quoted, so that the line tells it from none. -/
def writeRecord (separator : CodePoint) (fields : List Text) : Text :=
  let line :=
    match fields with
    | [[]] => quoteField []
    | fields => Text.join [separator] (fields.map (writeField separator))
  line ++ "\n"

def write (separator : CodePoint) (records : List (List Text)) : Text :=
  records.flatMap (writeRecord separator)

end Intake.Table
