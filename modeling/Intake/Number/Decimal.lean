import Intake.Number.Binary64

/-! Decimals and binary floating point. Reading a decimal rounds it to the nearest value. Writing
a value takes the fewest digits that read back as the same value. -/
namespace Intake

/-- The number `digits * 10 ^ exponent`. -/
structure Decimal where
  digits : Nat
  exponent : Int
  deriving DecidableEq, Repr

namespace Decimal

/-- The same number without zeros at the end of its digits. -/
def trim (d : Decimal) : Decimal :=
  if d.digits ≠ 0 ∧ d.digits % 10 = 0 then trim ⟨d.digits / 10, d.exponent + 1⟩ else d
termination_by d.digits
decreasing_by omega

end Decimal

namespace Binary64

/-- The nearest value to a decimal. A power of ten that is out of range for every significand is
answered before it is computed: `10 ^ 400` is beyond the greatest value, and `10 ^ (-k)` is less
than `2 ^ (-3 * k)`. -/
def ofDecimal (negative : Bool) (d : Decimal) : Binary64 :=
  if d.digits = 0 then zero negative
  else if d.exponent > 400 then infinite negative
  else if (d.digits.log2 : Int) + 1100 < -3 * d.exponent then zero negative
  else ofQuotient negative (d.digits * Nat.pow 10 d.exponent.toNat)
    (Nat.pow 10 (-d.exponent).toNat)

/-- The decimals on the grid `10 ^ exponent` next to a quotient, the nearer one first; of two that
are equally near, the even one. -/
def neighbours (num den : Nat) (exponent : Int) : List Decimal :=
  let num := num * Nat.pow 10 (-exponent).toNat
  let den := den * Nat.pow 10 exponent.toNat
  let below := num / den
  let rest := 2 * (num % den)
  let belowFirst := rest < den || (rest == den && below % 2 == 0)
  let ordered := if belowFirst then [below, below + 1] else [below + 1, below]
  ordered.map fun digits => (Decimal.mk digits exponent).trim

/-- The least exponent `k` for which a positive quotient is below `10 ^ k`. -/
def decimalScale (num den : Nat) : Int :=
  let low : Int := ((num.log2 : Int) - (den.log2 : Int) - 1) * 30103 / 100000
  let below (k : Int) : Bool := num * Nat.pow 10 (-k).toNat < den * Nat.pow 10 k.toNat
  ([low, low + 1, low + 2].find? below).getD (low + 3)

/-- The decimal with the fewest digits that reads back as the given finite value without its
sign. Seventeen digits always suffice; the exact decimal stands behind them. -/
def shortest (significand : Nat) (exponent : Int) : Decimal :=
  let value := ofParts false significand exponent
  let num := significand <<< exponent.toNat
  let den := 1 <<< (-exponent).toNat
  let scale := decimalScale num den
  let candidates := (List.range 17).flatMap fun n => neighbours num den (scale - (n + 1 : Nat))
  match candidates.find? fun d => ofDecimal false d = value with
  | some d => d
  | none => ⟨num * Nat.pow 5 (-exponent).toNat, min exponent 0⟩

end Binary64
end Intake
