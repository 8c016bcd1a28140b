/-! Binary floating point of sixty-four bits, as exact values: an operation is the operation on
rational numbers followed by one rounding to the nearest value, a tie going to the even
significand. -/
namespace Intake

/-- A significand and an exponent of a finite value in their one canonical form: fifty-three
significant bits, fewer only at the least exponent. -/
def Canonical (significand : Nat) (exponent : Int) : Prop :=
  significand < 0x20000000000000 ∧ -1074 ≤ exponent ∧ exponent ≤ 971 ∧
    (0x10000000000000 ≤ significand ∨ exponent = -1074)

instance (significand : Nat) (exponent : Int) : Decidable (Canonical significand exponent) :=
  inferInstanceAs (Decidable (_ ∧ _))

/-- A finite value stands for `significand * 2 ^ exponent`. -/
inductive Binary64
  | nan
  | infinite (negative : Bool)
  | finite (negative : Bool) (significand : Nat) (exponent : Int)
      (canonical : Canonical significand exponent)
  deriving DecidableEq

namespace Binary64

/-- A finite value, or infinity when the exponent is out of range. -/
def ofParts (negative : Bool) (significand : Nat) (exponent : Int) : Binary64 :=
  if canonical : Canonical significand exponent then finite negative significand exponent canonical
  else infinite negative

def zero (negative : Bool) : Binary64 := ofParts negative 0 (-1074)

instance : Inhabited Binary64 := ⟨zero false⟩

/-- A quotient rounded to the nearest natural number, a tie to the even one. -/
def roundQuotient (num den : Nat) : Nat :=
  let whole := num / den
  let rest := 2 * (num % den)
  if rest < den then whole
  else if den < rest then whole + 1
  else whole + whole % 2

/-- The nearest value to the quotient of two positive numbers. The quotient lies between two
neighbouring powers of two, which fixes the exponent up to one. -/
def ofQuotient (negative : Bool) (num den : Nat) : Binary64 :=
  let divisor (exponent : Int) : Nat × Nat :=
    (num <<< (-exponent).toNat, den <<< exponent.toNat)
  let guess : Int := (num.log2 : Int) - (den.log2 : Int) - 52
  let scaled := divisor guess
  let exponent :=
    max (if scaled.1 / scaled.2 < 0x10000000000000 then guess - 1 else guess) (-1074)
  let scaled := divisor exponent
  let significand := roundQuotient scaled.1 scaled.2
  if significand = 0x20000000000000 then ofParts negative 0x10000000000000 (exponent + 1)
  else ofParts negative significand exponent

def ofRat (r : Rat) : Binary64 :=
  if r = 0 then zero false else ofQuotient (r < 0) r.num.natAbs r.den

def toRat? : Binary64 → Option Rat
  | finite negative significand exponent _ =>
    let magnitude : Rat := (significand : Rat) * (2 : Rat) ^ exponent
    some (if negative then -magnitude else magnitude)
  | _ => none

def isNegative : Binary64 → Bool
  | nan => false
  | infinite negative => negative
  | finite negative _ _ _ => negative

def isFinite : Binary64 → Bool
  | finite _ _ _ _ => true
  | _ => false

/-- Whether the value equals zero, of either sign. -/
def isZero : Binary64 → Bool
  | finite _ significand _ _ => significand == 0
  | _ => false

def neg : Binary64 → Binary64
  | nan => nan
  | infinite negative => infinite (!negative)
  | finite negative significand exponent canonical =>
    finite (!negative) significand exponent canonical

def add (x y : Binary64) : Binary64 :=
  match x, y with
  | nan, _ | _, nan => nan
  | infinite a, infinite b => if a = b then infinite a else nan
  | infinite a, _ | _, infinite a => infinite a
  | finite a .., finite b .. =>
    match x.toRat?, y.toRat? with
    | some p, some q => if p + q = 0 then zero (a && b) else ofRat (p + q)
    | _, _ => nan

def sub (x y : Binary64) : Binary64 := add x y.neg

def mul (x y : Binary64) : Binary64 :=
  let negative := x.isNegative != y.isNegative
  match x, y with
  | nan, _ | _, nan => nan
  | infinite _, _ => if y.isZero then nan else infinite negative
  | _, infinite _ => if x.isZero then nan else infinite negative
  | finite .., finite .. =>
    match x.toRat?, y.toRat? with
    | some p, some q => if p * q = 0 then zero negative else ofRat (p * q)
    | _, _ => nan

/-- The quotient; a zero divisor gives infinity, or no number if the dividend is zero too. -/
def div (x y : Binary64) : Binary64 :=
  let negative := x.isNegative != y.isNegative
  match x, y with
  | nan, _ | _, nan => nan
  | infinite _, infinite _ => nan
  | infinite _, _ => infinite negative
  | _, infinite _ => zero negative
  | finite .., finite .. =>
    match x.toRat?, y.toRat? with
    | some p, some q =>
      if q = 0 then (if p = 0 then nan else infinite negative)
      else if p = 0 then zero negative
      else ofRat (p / q)
    | _, _ => nan

instance : Add Binary64 := ⟨add⟩
instance : Sub Binary64 := ⟨sub⟩
instance : Mul Binary64 := ⟨mul⟩
instance : Div Binary64 := ⟨div⟩
instance : Neg Binary64 := ⟨neg⟩

/-- Whether the first value is less than the second; no number is less than nothing. -/
def lt (x y : Binary64) : Bool :=
  match x, y with
  | nan, _ | _, nan => false
  | infinite a, infinite b => a && !b
  | infinite a, _ => a
  | _, infinite b => !b
  | finite .., finite .. =>
    match x.toRat?, y.toRat? with
    | some p, some q => p < q
    | _, _ => false

/-- Whether two values are equal as numbers: zeros of both signs are, and no number is not. -/
def same (x y : Binary64) : Bool :=
  match x, y with
  | nan, _ | _, nan => false
  | _, _ => x == y || (x.isZero && y.isZero)

def le (x y : Binary64) : Bool := lt x y || same x y

/-- The whole part of a finite value, rounded toward zero. -/
def truncate? (x : Binary64) : Option Int :=
  x.toRat?.map fun r => r.num.tdiv r.den

/-- The least integer that a finite value does not exceed. -/
def ceil? (x : Binary64) : Option Int :=
  x.toRat?.map fun r => -(-r.num / r.den)

/-- The integer nearest to a finite value, a tie to the even one. -/
def round? (x : Binary64) : Option Int :=
  x.toRat?.map fun r =>
    let magnitude : Int := roundQuotient r.num.natAbs r.den
    if r < 0 then -magnitude else magnitude

def ofInt? (i : Int) : Option Binary64 :=
  if i = 0 then some (zero false)
  else match ofQuotient (i < 0) i.natAbs 1 with
    | infinite _ => none
    | x => some x

/-- The nearest value to the quotient of two integers, none if it is out of range. -/
def ofRatio? (num den : Int) : Option Binary64 :=
  if num = 0 then some (zero false)
  else match ofQuotient ((num < 0) != (den < 0)) num.natAbs den.natAbs with
    | infinite _ => none
    | x => some x

end Binary64
end Intake
