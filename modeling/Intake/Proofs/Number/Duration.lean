import Intake.Number.Quantity
import Intake.Proofs.Number.Rounding
import Mathlib.Tactic.FieldSimp
import Mathlib.Tactic.Linarith

/-! Which numbers of days are spans of time: of those from zero on just the ones below a billion. What
is rounded in the fraction of a day never adds up to a day that the number does not have. And which
times a clock can show in milliseconds: those that are in range a thousand times over. -/
namespace Intake

namespace Binary64

theorem toRat?_sub {x y : Binary64} {p q : ℚ} (left : x.toRat? = some p) (right : y.toRat? = some q) :
    (x - y).toRat? = (ofRat (p - q)).toRat? := by
  cases y with
  | nan | infinite => cases right
  | finite negative significand exponent canonical =>
    cases x with
    | nan | infinite => cases left
    | finite negative' significand' exponent' canonical' =>
      have opposite : (finite negative significand exponent canonical).neg.toRat? = some (-q) := by
        obtain rfl := Option.some.inj right
        cases negative <;> simp [neg, toRat?]
      change (sub _ _).toRat? = _
      rw [neg] at opposite
      simp only [sub, neg, add, left, opposite]
      rw [← sub_eq_add_neg]
      split_ifs with none
      · rw [none]
        exact (toRat?_zero _).trans (toRat?_zero false).symm
      · rfl

theorem toRat?_mul {x y : Binary64} {p q : ℚ} (left : x.toRat? = some p) (right : y.toRat? = some q) :
    (x * y).toRat? = (ofRat (p * q)).toRat? := by
  cases y with
  | nan | infinite => cases right
  | finite negative significand exponent canonical =>
    cases x with
    | nan | infinite => cases left
    | finite negative' significand' exponent' canonical' =>
      change (mul _ _).toRat? = _
      simp only [mul, left, right]
      split_ifs with none
      · rw [none]
        exact (toRat?_zero _).trans (toRat?_zero false).symm
      · rfl

/-- What remains of a value without its whole part is its fraction. -/
theorem toRat?_fraction {x : Binary64} {r : ℚ} (value : x.toRat? = some r) (natural : 0 ≤ r) :
    (x - ofRat ⌊r⌋).toRat? = (ofRat (Int.fract r)).toRat? :=
  toRat?_sub value (toRat?_ofRat_floor value natural)

theorem truncate_eq_floor {x : Binary64} {r : ℚ} (value : x.toRat? = some r) (natural : 0 ≤ r) :
    x.truncate = .ok ⌊r⌋ := by
  have cut : x.truncate? = some ⌊r⌋ :=
    truncate?_eq_some.mpr ⟨r, value, (if_pos natural).symm⟩
  simp [truncate, cut]

end Binary64

def Duration.carry (total : Int) (rest : ℚ) : Int :=
  let twice := 2 * rest
  if 1 < twice then 1
  else if twice < -1 then -1
  else if twice = 1 then total % 2
  else if twice = -1 then -(total % 2)
  else 0

namespace Duration
open Binary64

theorem carry_le {rest : ℚ} (natural : 0 ≤ rest) (total : Int) :
    0 ≤ carry total rest ∧ carry total rest ≤ 1 := by
  have parity := Int.emod_two_eq_zero_or_one total
  unfold carry
  dsimp only
  split_ifs <;> first | omega | linarith

theorem carry_zero (total : Int) : carry total 0 = 0 := by
  norm_num [carry]

theorem ofUnits_real (unit : Int) {x : Binary64} {whole inner : Int} {rest : ℚ}
    (cut : x.truncate = .ok whole)
    (cut' : ((x - ofRat whole) * ofRat unit).truncate = .ok inner)
    (remains : ((x - ofRat whole) * ofRat unit - ofRat inner).toRat? = some rest) :
    ofUnits unit (.real x)
      = checked (whole * unit + inner + carry (whole * unit + inner) rest) := by
  simp only [ofUnits, cut, cut', remains, carry, bind, Except.bind]

theorem toRat?_dayLength : (ofRat dayLength).toRat? = some (dayLength : ℚ) :=
  toRat?_ofRat_natCast (n := 86400000000) (by decide)

/-- A span is the whole days of a number and an extra that its fraction is rounded to. The extra is a
whole day at most, and less than one if the fraction is not too near to one. -/
theorem ofDays_real {x : Binary64} {days : ℚ} (value : x.toRat? = some days) (natural : 0 ≤ days) :
    ∃ extra : Int, 0 ≤ extra ∧ extra ≤ dayLength ∧
      (Int.fract days ≤ 1 - 1 / 2 ^ 23 → extra < dayLength) ∧
      ofDays (.real x) = checked (⌊days⌋ * dayLength + extra) := by
  have one : (ofRat 1).toRat? = some 1 := by
    exact_mod_cast toRat?_ofRat_natCast (n := 1) (by decide)
  -- The fraction of a day, that fraction in microseconds, and what remains below a microsecond.
  obtain ⟨v, rounded, v_low, v_high⟩ :=
    toRat?_ofRat_le (Int.fract_nonneg days) one (Int.fract_lt_one days).le
  have fraction := (toRat?_fraction value natural).trans rounded
  have length_pos : (0 : ℚ) < dayLength := by norm_num [dayLength]
  have part_nonneg : 0 ≤ v * dayLength := mul_nonneg v_low length_pos.le
  obtain ⟨u, rounded', u_low, u_high⟩ := toRat?_ofRat_le part_nonneg toRat?_dayLength
    (mul_le_of_le_one_left length_pos.le v_high)
  have part := (toRat?_mul fraction toRat?_dayLength).trans rounded'
  obtain ⟨w, rounded'', w_low, -⟩ :=
    toRat?_ofRat_le (Int.fract_nonneg u) one (Int.fract_lt_one u).le
  have remains := (toRat?_fraction part u_low).trans rounded''
  have step := ofUnits_real dayLength (truncate_eq_floor value natural)
    (truncate_eq_floor part u_low) remains
  obtain ⟨carry_low, carry_high⟩ := carry_le w_low (⌊days⌋ * dayLength + ⌊u⌋)
  generalize carried : carry (⌊days⌋ * dayLength + ⌊u⌋) w = c at step carry_low carry_high
  have floor_low := Int.floor_nonneg.mpr u_low
  have floor_high : ⌊u⌋ ≤ dayLength := by exact_mod_cast (Int.floor_le u).trans u_high
  refine ⟨⌊u⌋ + c, by omega, ?_, ?_, by rw [← Int.add_assoc]; exact step⟩
  · obtain short | full := floor_high.lt_or_eq
    · omega
    · -- A whole day leaves nothing to round.
      have exact : u = dayLength := u_high.antisymm (full ▸ Int.floor_le u)
      rw [exact, Int.fract_intCast] at rounded''
      obtain rfl := Option.some.inj ((toRat?_zero false).symm.trans rounded'')
      rw [carry_zero] at carried
      omega
  · intro apart
    have grid : (Binary64.finite false ((2 ^ 23 - 1) * 2 ^ 30) (-53) (by decide)).toRat?
        = some (1 - 1 / 2 ^ 23) := by
      norm_num [toRat?]
    have v_short := le_of_toRat?_ofRat (Int.fract_nonneg days) rounded grid apart
    have limit : (ofRat ((dayLength - 2 : Int) : ℚ)).toRat? = some ((dayLength - 2 : Int) : ℚ) :=
      toRat?_ofRat_natCast (n := 86400000000 - 2) (by decide)
    have u_short := le_of_toRat?_ofRat part_nonneg rounded' limit (by
      refine (mul_le_mul_of_nonneg_right v_short length_pos.le).trans ?_
      norm_num [dayLength])
    have floor_short : ⌊u⌋ ≤ dayLength - 2 := by exact_mod_cast (Int.floor_le u).trans u_short
    omega

/-- A number just below a billion is below it by a step of its grid at least. -/
theorem fract_le_of_lt {x : Binary64} {days : ℚ} (value : x.toRat? = some days)
    (large : 999999999 ≤ days) (below : days < 1000000000) :
    Int.fract days ≤ 1 - 1 / 2 ^ 23 := by
  have whole : ⌊days⌋ = 999999999 := by
    rw [Int.floor_eq_iff]
    norm_num [large, below]
  obtain ⟨significand, exponent, canonical, same⟩ := shape_of_toRat? value (by linarith)
  have coarse : -23 ≤ exponent := by
    by_contra fine
    have power : (2 : ℚ) ^ exponent ≤ 2 ^ (-24 : Int) :=
      zpow_le_zpow_right₀ one_le_two (by omega)
    have digits : (significand : ℚ) ≤ 2 ^ 53 := by exact_mod_cast canonical.1.le
    have small : days ≤ 2 ^ 53 * 2 ^ (-24 : Int) := by
      rw [same]
      exact mul_le_mul digits power (by positivity) (by positivity)
    norm_num at small
    linarith
  obtain ⟨bits, rfl⟩ : ∃ bits : Nat, exponent = bits - 23 := ⟨(exponent + 23).toNat, by omega⟩
  have steps : days * 2 ^ 23 = (significand * 2 ^ bits : Nat) := by
    rw [same, zpow_sub₀ two_ne_zero, zpow_natCast]
    push_cast
    field_simp
    norm_num
  have fewer : significand * 2 ^ bits < 1000000000 * 2 ^ 23 := by
    have scaled : days * 2 ^ 23 < 1000000000 * 2 ^ 23 := by linarith
    rw [steps] at scaled
    exact_mod_cast scaled
  have last : days * 2 ^ 23 + 1 ≤ 1000000000 * 2 ^ 23 := by
    rw [steps]
    exact_mod_cast fewer
  rw [Int.fract, whole]
  push_cast
  linarith

/-- A number of days from zero on is a span if it is below a billion, and else too large. -/
theorem ofDays_of_natural {x : Binary64} {days : ℚ} (value : x.toRat? = some days)
    (natural : 0 ≤ days) :
    (days < 1000000000 → ∃ d, ofDays (.real x) = .ok d) ∧
      (1000000000 ≤ days → ofDays (.real x) = .error .unbounded) := by
  obtain ⟨extra, extra_low, extra_high, apart, same⟩ := ofDays_real value natural
  have floor_low := Int.floor_nonneg.mpr natural
  have floor_le := Int.floor_le days
  generalize whole : ⌊days⌋ = n at same floor_low floor_le
  rw [same, checked]
  constructor
  · intro below
    have most : n ≤ 999999999 := by
      have fewer : n < 1000000000 := by exact_mod_cast floor_le.trans_lt below
      omega
    have within : (n * dayLength + extra) / dayLength ≤ 999999999 := by
      simp only [dayLength] at extra_high apart ⊢
      obtain inside | last := most.lt_or_eq
      · omega
      · have large : 999999999 ≤ days := by
          rw [last] at floor_le
          exact_mod_cast floor_le
        have short := apart (fract_le_of_lt value large below)
        omega
    have positive : 0 ≤ (n * dayLength + extra) / dayLength := by
      simp only [dayLength]
      omega
    exact ⟨_, if_pos ⟨by omega, within⟩⟩
  · intro beyond
    have least : 1000000000 ≤ n := whole ▸ Int.le_floor.mpr (by exact_mod_cast beyond)
    have great : ¬ (n * dayLength + extra) / dayLength ≤ 999999999 := by
      simp only [dayLength]
      omega
    exact if_neg fun within => great within.2

end Duration

/-! Clocks. -/

namespace Binary64

/-- A number that is whole or small enough is rounded to a finite value exactly if it is below the
least one that is not in range. -/
theorem isSome_toRat?_ofRat_iff {r : ℚ} (positive : 0 < r) (fits : r.den = 1 ∨ r ≤ 2 ^ 64) :
    (ofRat r).toRat?.isSome = true ↔ r < leastOverflow := by
  have isSome_iff (x : Binary64) : x.toRat?.isSome = true ↔ x.isFinite = true := by
    cases x <;> simp [toRat?, isFinite]
  obtain whole | small := fits
  · have num_pos : 0 < r.num := Rat.num_pos.mpr positive
    have same : ((r.num.natAbs : ℕ) : ℚ) = r := by
      rw [← Int.cast_natCast r.num.natAbs, Int.natAbs_of_nonneg num_pos.le]
      exact Rat.coe_int_num_of_den_eq_one whole
    rw [isSome_iff, ofRat_eq_ofQuotient positive, whole, isFinite_ofQuotient_iff (by omega)]
    nth_rewrite 2 [← same]
    exact Nat.cast_lt.symm
  · have limit : (ofRat ((2 ^ 52 * 2 ^ 12 : Nat) : ℚ)).toRat? = some ((2 ^ 52 * 2 ^ 12 : Nat) : ℚ) :=
      toRat?_ofRat_exact (by decide)
    obtain ⟨v, rounded, -⟩ := toRat?_ofRat_le positive.le limit (small.trans (by norm_num))
    have power : 2 ^ 64 < leastOverflow := by
      decide +kernel
    refine iff_of_true (by simp [rounded]) (small.trans_lt ?_)
    exact_mod_cast power

end Binary64

/-- A clock that shows a time from 1970 on shows whole milliseconds, too, exactly if a thousand times
its seconds is in the range of floating point. -/
theorem Quantity.millis_ok_iff {x : Binary64} {seconds : ℚ} (value : x.toRat? = some seconds)
    (natural : 0 ≤ seconds) :
    (∃ now, (Quantity.real x).millis = .ok now) ↔ seconds * 1000 < Binary64.leastOverflow := by
  have product : (x * Binary64.ofRat 1000).toRat? = (Binary64.ofRat (seconds * 1000)).toRat? :=
    Binary64.toRat?_mul value (Binary64.toRat?_ofRat_natCast (n := 1000) (by decide))
  have ok_iff (y : Binary64) : (∃ i, y.truncate = .ok i) ↔ y.toRat?.isSome = true := by
    cases y <;> simp [Binary64.truncate, Binary64.truncate?, Binary64.toRat?]
  rw [Quantity.millis, ok_iff, product]
  obtain rfl | positive := natural.eq_or_lt
  · have power : (0 : ℚ) < Binary64.leastOverflow := by
      exact_mod_cast Nat.zero_lt_of_lt Binary64.largest_lt_leastOverflow
    rw [zero_mul, Binary64.ofRat, if_pos rfl, Binary64.toRat?_zero]
    exact iff_of_true rfl power
  · refine Binary64.isSome_toRat?_ofRat_iff (by positivity) ?_
    -- A value with a fraction has few digits in front of the point.
    obtain ⟨significand, exponent, canonical, rfl⟩ := Binary64.shape_of_toRat? value natural
    obtain whole | fraction := Int.le_total 0 exponent
    · obtain ⟨n, rfl⟩ := Int.eq_ofNat_of_zero_le whole
      left
      have same : (significand : ℚ) * 2 ^ (n : Int) * 1000 = (significand * 2 ^ n * 1000 : Nat) := by
        push_cast
        rw [zpow_natCast]
      rw [same, Rat.den_natCast]
    · right
      have digits : (significand : ℚ) ≤ 2 ^ 53 := by exact_mod_cast canonical.1.le
      have power : (2 : ℚ) ^ exponent ≤ 1 := zpow_le_one_of_nonpos₀ one_le_two fraction
      have short := (mul_le_of_le_one_right (Nat.cast_nonneg significand) power).trans digits
      linarith

/-- The largest power of ten that a clock may show, and the next one. -/
example : ((Quantity.real (.ofRat (10 ^ 305))).millis.toOption.isSome,
    (Quantity.real (.ofRat (10 ^ 306))).millis.toOption.isSome) = (true, false) := by
  decide +kernel

end Intake
