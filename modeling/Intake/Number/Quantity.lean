import Intake.Number.Binary64

/-! Quantities as they are handed in: whole or floating-point. A span of time is kept in whole
microseconds, and instants and windows of the progress store in whole milliseconds. -/
namespace Intake

inductive Quantity
  | whole (value : Int)
  | real (value : Binary64)

inductive TimeError
  /-- infinite, or a span of a billion days or more -/
  | unbounded
  /-- no number -/
  | undefined
  deriving DecidableEq, Repr

/-- The whole part of a value, rounded toward zero. -/
def Binary64.truncate (x : Binary64) : Except TimeError Int :=
  match x, x.truncate? with
  | _, some i => .ok i
  | .nan, none => .error .undefined
  | _, none => .error .unbounded

/-- Milliseconds of an instant in seconds, the rest of a millisecond being cut off. -/
def Quantity.millis : Quantity → Except TimeError Int
  | whole i => .ok (i * 1000)
  | real x => (x * .ofRat 1000).truncate

/-- A span of time in microseconds. -/
structure Duration where
  microseconds : Int
  deriving DecidableEq, Repr

namespace Duration

def dayLength : Int := 86400000000

/-- A span of fewer than a billion days. -/
def checked (microseconds : Int) : Except TimeError Duration :=
  let days := microseconds / dayLength
  if -999999999 ≤ days ∧ days ≤ 999999999 then .ok ⟨microseconds⟩ else .error .unbounded

/-- A number of units of so many microseconds each. The fraction of a floating-point number is
multiplied as a floating-point number, and what remains below a microsecond goes to the nearest
one, a tie to the even sum. -/
def ofUnits (unit : Int) (quantity : Quantity) : Except TimeError Duration := do
  match quantity with
  | .whole i => checked (i * unit)
  | .real x =>
    let whole ← x.truncate
    let fraction := (x - Binary64.ofRat whole) * Binary64.ofRat unit
    let inner ← fraction.truncate
    let total := whole * unit + inner
    match (fraction - Binary64.ofRat inner).toRat? with
    | none => checked total
    | some rest =>
      let twice := 2 * rest
      let step : Int :=
        if 1 < twice then 1
        else if twice < -1 then -1
        else if twice = 1 then total % 2
        else if twice = -1 then -(total % 2)
        else 0
      checked (total + step)

def ofSeconds (quantity : Quantity) : Except TimeError Duration := ofUnits 1000000 quantity

def ofDays (quantity : Quantity) : Except TimeError Duration := ofUnits dayLength quantity

/-- The whole milliseconds of a span: its seconds as a floating-point number, times a thousand,
cut off. -/
def millis (d : Duration) : Int :=
  let seconds := (Binary64.ofRatio? d.microseconds 1000000).getD default
  ((seconds * .ofRat 1000).truncate?).getD 0

end Duration
end Intake
