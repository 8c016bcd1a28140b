import Intake.Entries
import Intake.Number.Binary64
import Intake.Text.Basic

/-! JSON values. The entries of an object keep their order. Integers have any size, and a number
written with a point or an exponent is a floating-point value. -/
namespace Intake

inductive Json
  | null
  | boolean (value : Bool)
  | integer (value : Int)
  | real (value : Binary64)
  | text (value : Text)
  | list (items : List Json)
  | object (entries : List (Text × Json))
  deriving Inhabited

namespace Json

def get? (key : Text) : Json → Option Json
  | object entries => Entries.get? key entries
  | _ => none

/-- The most digits that the decimal text of an integer may have. -/
def digitLimit : Nat := 4300

end Json
end Intake
