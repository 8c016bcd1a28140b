import Intake.Text.Basic

/-! Days of the proleptic Gregorian calendar and instants of universal time. A year is any
integer; year 0 is a leap year. -/
namespace Intake.Calendar

/-- A day by year, month and day of the month, both counted from one. -/
structure Day where
  year : Int
  month : Nat
  day : Nat
  deriving DecidableEq, Repr

def isLeapYear (year : Int) : Bool := year % 4 == 0 && (year % 100 != 0 || year % 400 == 0)

def monthLength (year : Int) (month : Nat) : Nat :=
  if month = 2 then (if isLeapYear year then 29 else 28)
  else if month = 4 ∨ month = 6 ∨ month = 9 ∨ month = 11 then 30
  else 31

namespace Day

def isValid (d : Day) : Bool :=
  1 ≤ d.month && d.month ≤ 12 && 1 ≤ d.day && d.day ≤ monthLength d.year d.month

/-- Days since the first of January 1970. A year begins in March here, so that its leap day is
its last; four hundred years have 146097 days. -/
def number (d : Day) : Int :=
  let year := if d.month ≤ 2 then d.year - 1 else d.year
  let month : Int := if d.month ≤ 2 then d.month + 9 else d.month - 3
  let era := year / 400
  let inEra := year % 400
  let inYear := (153 * month + 2) / 5 + d.day - 1
  era * 146097 + inEra * 365 + inEra / 4 - inEra / 100 + inYear - 719468

def ofNumber (n : Int) : Day :=
  let n := n + 719468
  let era := n / 146097
  let inEra := n % 146097
  let year := (inEra - inEra / 1460 + inEra / 36524 - inEra / 146096) / 365
  let inYear := inEra - (365 * year + year / 4 - year / 100)
  let month := (5 * inYear + 2) / 153
  let day := inYear - (153 * month + 2) / 5 + 1
  let wrapped := if month < 10 then month + 3 else month - 9
  ⟨year + era * 400 + if wrapped ≤ 2 then 1 else 0, wrapped.toNat, day.toNat⟩

end Day

/-- An instant, as nanoseconds since the start of 1970. -/
structure Instant where
  nanoseconds : Int
  deriving DecidableEq, Repr

/-- A number with zeros in front of it up to a width, after its sign. -/
def padded (width : Nat) (n : Int) : Text :=
  let digits := Text.ofNat n.natAbs
  let width := if n < 0 then width - 1 else width
  (if n < 0 then [.scalar '-'] else []) ++
    List.replicate (width - digits.length) (.scalar '0') ++ digits

namespace Instant

def secondLength : Int := 1000000000

def dayLength : Int := 86400 * secondLength

/-- Day and time of day with the offset of universal time. A fraction of a second has six digits
if it is a whole number of microseconds, else nine. -/
def text (i : Instant) : Text :=
  let d := Day.ofNumber (i.nanoseconds / dayLength)
  let inDay := i.nanoseconds % dayLength
  let seconds := inDay / secondLength
  let fraction := inDay % secondLength
  let fractionText : Text :=
    if fraction = 0 then []
    else if fraction % 1000 = 0 then .scalar '.' :: padded 6 (fraction / 1000)
    else .scalar '.' :: padded 9 fraction
  padded 4 d.year ++ "-" ++ padded 2 d.month ++ "-" ++ padded 2 d.day ++ "T" ++
    padded 2 (seconds / 3600) ++ ":" ++ padded 2 (seconds / 60 % 60) ++ ":" ++
    padded 2 (seconds % 60) ++ fractionText ++ "+00:00"

/-- Whether the instant is one of those that a signed count of nanoseconds in sixty-four bits can
hold; the least count is kept free. -/
def fitsNanoseconds (i : Instant) : Bool :=
  i.nanoseconds.natAbs < 0x8000000000000000

end Instant
end Intake.Calendar
