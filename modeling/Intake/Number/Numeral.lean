import Intake.Number.Decimal
import Intake.Text.Blank
import Intake.Text.Digit

/-! Numerals: the written forms of floating-point values. A value is written with a point or an
exponent; it is positional while its leading digit stands between ten thousandths and the
sixteenth place before the point. -/
namespace Intake

/-- The digits of an exponent, at least two. -/
def exponentDigits (n : Nat) : Text :=
  if n < 10 then .scalar '0' :: Text.ofNat n else Text.ofNat n

namespace Decimal

def text (d : Decimal) : Text :=
  let digits := Text.ofNat d.digits
  let leading := d.exponent + (digits.length : Int) - 1
  let zeros (n : Int) : Text := List.replicate n.toNat (.scalar '0')
  if -4 ≤ leading ∧ leading < 16 then
    if 0 ≤ d.exponent then digits ++ zeros d.exponent ++ ".0"
    else if 0 ≤ leading then
      digits.take (leading + 1).toNat ++ "." ++ digits.drop (leading + 1).toNat
    else "0." ++ zeros (-leading - 1) ++ digits
  else
    let fraction : Text := if digits.length = 1 then [] else "." ++ digits.drop 1
    let sign : Text := if leading < 0 then "-" else "+"
    digits.take 1 ++ fraction ++ "e" ++ sign ++ exponentDigits leading.natAbs

end Decimal

namespace Binary64

def finiteText (negative : Bool) (significand : Nat) (exponent : Int) : Text :=
  let sign : Text := if negative then "-" else []
  if significand = 0 then sign ++ "0.0" else sign ++ (shortest significand exponent).text

def text : Binary64 → Text
  | nan => "nan"
  | infinite negative => if negative then "-inf" else "inf"
  | finite negative significand exponent _ => finiteText negative significand exponent

/-- An unsigned numeral: digits with an optional point, at least one digit in all, and an optional
exponent. -/
def magnitude? (negative : Bool) (t : Text) : Option Binary64 :=
  let (whole, rest) := t.takeDigits
  let (fraction, rest) := match rest with
    | .scalar '.' :: rest => Text.takeDigits rest
    | _ => ([], rest)
  if whole.isEmpty ∧ fraction.isEmpty then none
  else
    let digits := numberOfDigits 10 (whole ++ fraction)
    let scale : Int := -fraction.length
    let signed (down : Bool) (rest : Text) : Option Binary64 :=
      match Text.takeDigits rest with
      | ([], _) => none
      | (exponent, []) =>
        let n : Int := numberOfDigits 10 exponent
        some (ofDecimal negative ⟨digits, scale + if down then -n else n⟩)
      | _ => none
    match rest with
    | [] => some (ofDecimal negative ⟨digits, scale⟩)
    | .scalar e :: rest =>
      if e = 'e' ∨ e = 'E' then
        match rest with
        | .scalar '-' :: rest => signed true rest
        | .scalar '+' :: rest => signed false rest
        | _ => signed false rest
      else none
    | _ => none

/-- The text with every decimal digit written in ASCII and every ASCII capital as a small letter. -/
def foldNumeral (t : Text) : Text :=
  t.map fun c =>
    match c.digit? with
    | some digit => (CodePoint.ofNat? (0x30 + digit)).getD c
    | none => if 0x41 ≤ c.value ∧ c.value ≤ 0x5A then (CodePoint.ofNat? (c.value + 32)).getD c else c

/-- Reads a numeral: an optional sign before a number, `nan`, `inf` or `infinity`, in any case,
with blanks around it. -/
def ofText? (t : Text) : Option Binary64 :=
  let unsigned (negative : Bool) (t : Text) : Option Binary64 :=
    if t = Text.ofString "nan" then some nan
    else if t = Text.ofString "inf" ∨ t = Text.ofString "infinity" then some (infinite negative)
    else magnitude? negative t
  match foldNumeral t.strip with
  | .scalar '-' :: rest => unsigned true rest
  | .scalar '+' :: rest => unsigned false rest
  | t => unsigned false t

/-- A text without its underscores, each of which stands between two digits. -/
def dropSeparators? : Text → Option Text
  | [] => some []
  | .scalar '_' :: _ => none
  | c :: .scalar '_' :: d :: rest =>
    if c.digit?.isSome ∧ d.digit?.isSome then (dropSeparators? (d :: rest)).map (c :: ·) else none
  | [_, .scalar '_'] => none
  | c :: rest => (dropSeparators? rest).map (c :: ·)

end Binary64
end Intake
