import Intake.Number.Decimal
import Intake.Proofs.Number.Binary64
import Mathlib.Algebra.Order.Field.Power
import Mathlib.Data.Int.Log
import Mathlib.Tactic.Positivity

/-! The decimal that is written for a finite value reads back as the value. Rounding a quotient
depends on the quotient alone, and not on the two numbers that make it, so that a decimal may be
written on any grid of powers of ten that holds it. -/
namespace Intake.Binary64

theorem roundQuotient_mul (num den : Nat) {k : Nat} (positive : 0 < k) :
    roundQuotient (num * k) (den * k) = roundQuotient num den := by
  have doubled : 2 * (num % den * k) = 2 * (num % den) * k := (Nat.mul_assoc _ _ _).symm
  simp only [roundQuotient, Nat.mul_div_mul_right num den positive, Nat.mul_mod_mul_right, doubled,
    Nat.mul_lt_mul_right positive]

theorem roundQuotient_exact (n : Nat) {k : Nat} (positive : 0 < k) :
    roundQuotient (n * k) k = n := by
  simp [roundQuotient, Nat.mul_div_cancel n positive, positive]

def scaleOf (num den : Nat) : Int := Int.log 2 ((num : ℚ) / den) - 52

variable {num den : Nat}

theorem shifted_div (num den : Nat) (exponent : Int) :
    ((num * 2 ^ (-exponent).toNat : Nat) : ℚ) / ((den * 2 ^ exponent.toNat : Nat) : ℚ)
      = (num : ℚ) / den * (2 : ℚ) ^ (-exponent) := by
  push_cast
  rcases Int.le_total 0 exponent with up | down
  · obtain ⟨n, rfl⟩ := Int.eq_ofNat_of_zero_le up
    have none : (-(n : Int)).toNat = 0 := by omega
    rw [none, Int.toNat_natCast, pow_zero, mul_one, zpow_neg, zpow_natCast, div_mul_eq_div_div,
      div_eq_mul_inv]
  · obtain ⟨n, same⟩ := Int.eq_ofNat_of_zero_le (show 0 ≤ -exponent by omega)
    have none : exponent.toNat = 0 := by omega
    rw [none, same, Int.toNat_natCast, pow_zero, mul_one, zpow_natCast, mul_div_right_comm]

/-- The sizes of two numbers tell the scale of their quotient up to one, and comparing the quotient
tells the rest. -/
private theorem guess_eq (some : 0 < num) (divides : 0 < den) {guess : Int}
    (guessed : guess = (num.log2 : Int) - (den.log2 : Int) - 52) :
    (if num * 2 ^ (-guess).toNat / (den * 2 ^ guess.toNat) < 2 ^ 52 then guess - 1 else guess)
      = scaleOf num den := by
  have num_pos : (0 : ℚ) < num := by exact_mod_cast some
  have den_pos : (0 : ℚ) < den := by exact_mod_cast divides
  have positive : 0 < (num : ℚ) / den := div_pos num_pos den_pos
  have size (n : Nat) (h : 0 < n) :
      (2 : ℚ) ^ (n.log2 : Int) ≤ n ∧ (n : ℚ) < (2 : ℚ) ^ ((n.log2 : Int) + 1) := by
    refine ⟨?_, ?_⟩
    · rw [zpow_natCast]
      exact_mod_cast Nat.log2_self_le h.ne'
    · exact_mod_cast (Nat.lt_log2_self : n < 2 ^ (n.log2 + 1))
  obtain ⟨num_low, num_high⟩ := size num some
  obtain ⟨den_low, den_high⟩ := size den divides
  have two : (0 : ℚ) < 2 := by norm_num
  have low : (num.log2 : Int) - den.log2 - 1 ≤ Int.log 2 ((num : ℚ) / den) := by
    refine (Int.zpow_le_iff_le_log Nat.one_lt_two positive).mp ?_
    rw [le_div_iff₀ den_pos]
    calc ((2 : Nat) : ℚ) ^ ((num.log2 : Int) - den.log2 - 1) * den
        ≤ (2 : ℚ) ^ ((num.log2 : Int) - den.log2 - 1) * (2 : ℚ) ^ ((den.log2 : Int) + 1) := by
          push_cast
          gcongr
      _ = (2 : ℚ) ^ (num.log2 : Int) := by
          rw [← zpow_add₀ two.ne']
          congr 1
          omega
      _ ≤ num := num_low
  have high : Int.log 2 ((num : ℚ) / den) < (num.log2 : Int) - den.log2 + 1 := by
    refine (Int.lt_zpow_iff_log_lt Nat.one_lt_two positive).mp ?_
    rw [div_lt_iff₀ den_pos]
    calc (num : ℚ) < (2 : ℚ) ^ ((num.log2 : Int) + 1) := num_high
      _ = ((2 : Nat) : ℚ) ^ ((num.log2 : Int) - den.log2 + 1) * (2 : ℚ) ^ (den.log2 : Int) := by
          push_cast
          rw [← zpow_add₀ two.ne']
          congr 1
          omega
      _ ≤ ((2 : Nat) : ℚ) ^ ((num.log2 : Int) - den.log2 + 1) * den := by gcongr
  have compared : num * 2 ^ (-guess).toNat / (den * 2 ^ guess.toNat) < 2 ^ 52 ↔
      Int.log 2 ((num : ℚ) / den) < guess + 52 := by
    have scaled_pos : 0 < den * 2 ^ guess.toNat := Nat.mul_pos divides (Nat.two_pow_pos _)
    have scaled : (0 : ℚ) < ((den * 2 ^ guess.toNat : Nat) : ℚ) := by exact_mod_cast scaled_pos
    rw [Nat.div_lt_iff_lt_mul scaled_pos, ← Int.lt_zpow_iff_log_lt Nat.one_lt_two positive,
      ← Nat.cast_lt (α := ℚ), Nat.cast_mul (2 ^ 52), ← div_lt_iff₀ scaled, shifted_div, zpow_neg,
      ← div_eq_mul_inv, div_lt_iff₀ (zpow_pos two _)]
    push_cast
    rw [zpow_add₀ two.ne', mul_comm]
    norm_num
  unfold scaleOf
  split_ifs with below
  · rw [compared] at below
    omega
  · rw [compared] at below
    omega

/-- The nearest value to a quotient, by the scale of the quotient. -/
theorem ofQuotient_eq (negative : Bool) (some : 0 < num) (divides : 0 < den) {exponent : Int}
    (scaled : exponent = max (scaleOf num den) (-1074)) {significand : Nat}
    (rounded : significand
      = roundQuotient (num * 2 ^ (-exponent).toNat) (den * 2 ^ exponent.toNat)) :
    ofQuotient negative num den =
      if significand = 2 ^ 53 then ofParts negative (2 ^ 52) (exponent + 1)
      else ofParts negative significand exponent := by
  subst rounded scaled
  rw [← guess_eq some divides rfl]
  simp only [ofQuotient, Nat.shiftLeft_eq]
  rfl

/-- A quotient is rounded to the same value if both its numbers are scaled. -/
theorem ofQuotient_mul (negative : Bool) (some : 0 < num) (divides : 0 < den) {k : Nat}
    (positive : 0 < k) : ofQuotient negative (num * k) (den * k) = ofQuotient negative num den := by
  have scale : scaleOf (num * k) (den * k) = scaleOf num den := by
    have nonzero : (k : ℚ) ≠ 0 := by exact_mod_cast positive.ne'
    unfold scaleOf
    push_cast
    rw [mul_div_mul_right _ _ nonzero]
  have rounded (up down : Nat) :
      roundQuotient (num * k * up) (den * k * down) = roundQuotient (num * up) (den * down) := by
    rw [Nat.mul_right_comm num, Nat.mul_right_comm den, roundQuotient_mul _ _ positive]
  rw [ofQuotient_eq negative some divides rfl rfl,
    ofQuotient_eq negative (Nat.mul_pos some positive) (Nat.mul_pos divides positive) rfl rfl,
    scale, rounded]

theorem ofParts_of_canonical {negative : Bool} {significand : Nat} {exponent : Int}
    (canonical : Canonical significand exponent) :
    ofParts negative significand exponent = finite negative significand exponent canonical :=
  dif_pos canonical

/-- A finite value is the nearest one to itself. -/
theorem ofQuotient_exact (negative : Bool) {significand : Nat} {exponent : Int}
    (canonical : Canonical significand exponent) (some : 0 < significand) :
    ofQuotient negative (significand * 2 ^ exponent.toNat) (2 ^ (-exponent).toNat)
      = finite negative significand exponent canonical := by
  have ⟨short, least, _, full⟩ := canonical
  have num_pos : 0 < significand * 2 ^ exponent.toNat := Nat.mul_pos some (Nat.two_pow_pos _)
  have den_pos : 0 < 2 ^ (-exponent).toNat := Nat.two_pow_pos _
  have ratio : ((significand * 2 ^ exponent.toNat : Nat) : ℚ) / ((2 ^ (-exponent).toNat : Nat) : ℚ)
      = (significand : ℚ) * (2 : ℚ) ^ exponent := by
    have shifted := shifted_div significand 1 (-exponent)
    simpa using shifted
  have digits : (0 : ℚ) < significand := by exact_mod_cast some
  have positive : (0 : ℚ) < (significand : ℚ) * (2 : ℚ) ^ exponent := by positivity
  have high : Int.log 2 ((significand : ℚ) * (2 : ℚ) ^ exponent) < 53 + exponent := by
    refine (Int.lt_zpow_iff_log_lt Nat.one_lt_two positive).mp ?_
    push_cast
    rw [zpow_add₀ (by norm_num)]
    gcongr
    exact_mod_cast short
  have scale : max (scaleOf (significand * 2 ^ exponent.toNat) (2 ^ (-exponent).toNat)) (-1074)
      = exponent := by
    unfold scaleOf
    rw [ratio]
    rcases full with full | same
    · have low : 52 + exponent ≤ Int.log 2 ((significand : ℚ) * (2 : ℚ) ^ exponent) := by
        refine (Int.zpow_le_iff_le_log Nat.one_lt_two positive).mp ?_
        push_cast
        rw [zpow_add₀ (by norm_num)]
        gcongr
        exact_mod_cast full
      omega
    · omega
  have rounded : roundQuotient (significand * 2 ^ exponent.toNat * 2 ^ (-exponent).toNat)
      (2 ^ (-exponent).toNat * 2 ^ exponent.toNat) = significand := by
    rw [Nat.mul_assoc, Nat.mul_comm (2 ^ exponent.toNat)]
    exact roundQuotient_exact significand (Nat.mul_pos den_pos (Nat.two_pow_pos _))
  rw [ofQuotient_eq negative num_pos den_pos scale.symm rounded.symm, if_neg (by omega)]
  exact ofParts_of_canonical canonical

/-! Decimals. -/

theorem ofParts_neg (significand : Nat) (exponent : Int) :
    ofParts true significand exponent = (ofParts false significand exponent).neg := by
  unfold ofParts
  split_ifs <;> rfl

theorem ofQuotient_neg (num den : Nat) : ofQuotient true num den = (ofQuotient false num den).neg := by
  simp only [ofQuotient, ofParts_neg]
  split_ifs <;> rfl

theorem ofDecimal_neg (d : Decimal) : ofDecimal true d = (ofDecimal false d).neg := by
  unfold ofDecimal
  split_ifs
  · exact ofParts_neg _ _
  · rfl
  · exact ofParts_neg _ _
  · exact ofQuotient_neg _ _

/-- A decimal that is in range may be written on the grid of tenths, too. -/
theorem ofDecimal_tenths (negative : Bool) {digits exponent : Nat} (some : 0 < digits)
    (bounded : exponent ≤ 400) :
    ofDecimal negative ⟨digits * 10 ^ (exponent + 1), -1⟩ = ofDecimal negative ⟨digits, exponent⟩ := by
  have power : 0 < 10 ^ exponent := Nat.pow_pos (by decide)
  have scaled : digits * 10 ^ (exponent + 1) = digits * 10 ^ exponent * 10 := by
    rw [Nat.pow_succ, Nat.mul_assoc]
  have nonzero : digits * 10 ^ (exponent + 1) ≠ 0 := by
    rw [scaled]
    exact (Nat.mul_pos (Nat.mul_pos some power) (by decide)).ne'
  have same := @ofQuotient_mul (digits * 10 ^ exponent) 1 negative (Nat.mul_pos some power)
    Nat.one_pos 10 (by decide)
  simp only [ofDecimal, if_neg nonzero, if_neg some.ne']
  rw [if_neg (by omega), if_neg (by omega), if_neg (by omega), if_neg (by omega)]
  simpa [scaled] using same

private theorem ofDecimal_exact {significand : Nat} {exponent : Int}
    (canonical : Canonical significand exponent) (some : 0 < significand) :
    ofDecimal false ⟨significand * 2 ^ exponent.toNat * 5 ^ (-exponent).toNat, min exponent 0⟩
      = finite false significand exponent canonical := by
  rw [← ofQuotient_exact false canonical some]
  have fives : 0 < 5 ^ (-exponent).toNat := Nat.pow_pos (by decide)
  have num_pos : 0 < significand * 2 ^ exponent.toNat := Nat.mul_pos some (Nat.two_pow_pos _)
  obtain ⟨_, least, _, _⟩ := canonical
  have large : ¬ (((significand * 2 ^ exponent.toNat * 5 ^ (-exponent).toNat).log2 : Int) + 1100
      < -3 * min exponent 0) := by
    have size : 2 * (-exponent).toNat
        ≤ (significand * 2 ^ exponent.toNat * 5 ^ (-exponent).toNat).log2 := by
      refine (Nat.le_log2 (Nat.mul_pos num_pos fives).ne').mpr ?_
      calc 2 ^ (2 * (-exponent).toNat) = 4 ^ (-exponent).toNat := by
            rw [Nat.pow_mul]
        _ ≤ 5 ^ (-exponent).toNat := Nat.pow_le_pow_left (by decide) _
        _ ≤ significand * 2 ^ exponent.toNat * 5 ^ (-exponent).toNat :=
            Nat.le_mul_of_pos_left _ num_pos
    omega
  have down : (min exponent 0).toNat = 0 := by omega
  have up : (-min exponent 0).toNat = (-exponent).toNat := by omega
  simp only [ofDecimal, if_neg (Nat.mul_pos num_pos fives).ne', if_neg large, down, up,
    Nat.pow_eq, Nat.pow_zero, Nat.mul_one]
  rw [if_neg (by omega), show (10 : Nat) = 2 * 5 from rfl, Nat.mul_pow]
  exact ofQuotient_mul false num_pos (Nat.two_pow_pos _) fives

/-- The shortest decimal reads back as the value, and is in range. -/
theorem ofDecimal_shortest {significand : Nat} {exponent : Int}
    (canonical : Canonical significand exponent) (some : 0 < significand) :
    ofDecimal false (shortest significand exponent)
      = finite false significand exponent canonical := by
  have value := @ofParts_of_canonical false _ _ canonical
  unfold shortest
  dsimp only
  split
  · rename_i d found
    have same := List.find?_some found
    rw [decide_eq_true_eq] at same
    rw [same, value]
  · simpa [Nat.shiftLeft_eq] using ofDecimal_exact canonical some

/-- A decimal that reads back as a value other than zero has digits, and no great exponent. -/
theorem shape_of_ofDecimal {d : Decimal} {significand : Nat} {exponent : Int}
    {canonical : Canonical significand exponent} (some : 0 < significand)
    (read : ofDecimal false d = finite false significand exponent canonical) :
    0 < d.digits ∧ d.exponent ≤ 400 := by
  unfold ofDecimal at read
  split_ifs at read with none great
  · rw [zero, ofParts_of_canonical (by decide)] at read
    cases read
    exact absurd some (Nat.lt_irrefl 0)
  · rw [zero, ofParts_of_canonical (by decide)] at read
    cases read
    exact absurd some (Nat.lt_irrefl 0)
  · exact ⟨Nat.pos_of_ne_zero none, Int.not_lt.mp great⟩

end Intake.Binary64
