import Intake.Number.Binary64
import Mathlib.Data.Rat.Floor
import Mathlib.Tactic.NormNum

/-! Which integers are in range of floating point: those that are rounded to the largest finite
value or to one below it, and so every integer that a finite value is rounded up to. -/
namespace Intake.Binary64

def topExponent : Nat := 971

def largest : Nat := (2 ^ 53 - 1) * 2 ^ topExponent

def leastOverflow : Nat := (2 ^ 54 - 1) * 2 ^ (topExponent - 1)

private theorem two_pow_topExponent : 2 ^ topExponent = 2 * 2 ^ (topExponent - 1) := by
  rw [Nat.mul_comm, Nat.two_pow_pred_mul_two (by decide)]

theorem largest_lt_leastOverflow : largest < leastOverflow := by
  have positive : 0 < 2 ^ (topExponent - 1) := Nat.two_pow_pos _
  rw [largest, leastOverflow, two_pow_topExponent]
  generalize 2 ^ (topExponent - 1) = power at positive
  omega

theorem le_roundQuotient (num den : Nat) : num / den ≤ roundQuotient num den := by
  simp only [roundQuotient]
  split
  · exact Nat.le_refl _
  · split <;> omega

theorem roundQuotient_le {num den bound : Nat} (positive : 0 < den) (below : num ≤ bound * den) :
    roundQuotient num den ≤ bound := by
  have whole : num / den ≤ bound := Nat.div_le_of_le_mul (Nat.mul_comm bound den ▸ below)
  obtain inside | last := Nat.lt_or_eq_of_le whole
  · simp only [roundQuotient]
    split
    · omega
    · split <;> omega
  · have exact : num % den = 0 := by
      have split := Nat.div_add_mod num den
      rw [last, Nat.mul_comm] at split
      omega
    simp [roundQuotient, exact, positive, last]

/-- A quotient is rounded to an odd number at most if it stays below that number and a half. -/
theorem roundQuotient_le_iff {num half bound : Nat} (positive : 0 < half) (odd : bound % 2 = 1) :
    roundQuotient num (2 * half) ≤ bound ↔ num < (2 * bound + 1) * half := by
  have split := Nat.div_add_mod num (2 * half)
  have rest := Nat.mod_lt num (Nat.mul_pos Nat.two_pos positive)
  have limit : (2 * bound + 1) * half = 2 * half * bound + half := by
    rw [Nat.add_mul, Nat.one_mul, Nat.mul_right_comm]
  rw [limit, roundQuotient]
  generalize num % (2 * half) = remainder at split rest ⊢
  obtain below | same | above := Nat.lt_trichotomy (num / (2 * half)) bound
  · have room : 2 * half * (num / (2 * half)) + 2 * half ≤ 2 * half * bound := by
      rw [← Nat.mul_succ]
      exact Nat.mul_le_mul_left _ below
    split_ifs <;> omega
  · rw [same] at split ⊢
    split_ifs <;> omega
  · have beyond : 2 * half * bound + 2 * half ≤ 2 * half * (num / (2 * half)) := by
      rw [← Nat.mul_succ]
      exact Nat.mul_le_mul_left _ above
    split_ifs <;> omega

private theorem scaled_bounds {n : Nat} (some : n ≠ 0) (guess : Int)
    (guessed : guess = (n.log2 : Int) - 52) :
    2 ^ 52 * 2 ^ guess.toNat ≤ n * 2 ^ (-guess).toNat ∧
      n * 2 ^ (-guess).toNat < 2 ^ 53 * 2 ^ guess.toNat := by
  have low : 2 ^ n.log2 ≤ n := Nat.log2_self_le some
  have high : n < 2 ^ (n.log2 + 1) := Nat.lt_log2_self
  obtain small | large := Nat.le_total n.log2 52
  · obtain ⟨rest, sum⟩ := Nat.exists_eq_add_of_le small
    have up : (-guess).toNat = rest := by omega
    have down : guess.toNat = 0 := by omega
    have positive : 0 < 2 ^ rest := Nat.two_pow_pos rest
    rw [up, down, sum, Nat.pow_add, show 53 = n.log2 + 1 + rest by omega, Nat.pow_add]
    simp only [Nat.pow_zero, Nat.mul_one]
    exact ⟨Nat.mul_le_mul_right _ low, Nat.mul_lt_mul_of_pos_right high positive⟩
  · obtain ⟨rest, sum⟩ := Nat.exists_eq_add_of_le large
    have up : (-guess).toNat = 0 := by omega
    have down : guess.toNat = rest := by omega
    rw [up, down, ← Nat.pow_add, ← Nat.pow_add, Nat.pow_zero, Nat.mul_one, ← sum]
    exact ⟨low, by rwa [show 53 + rest = n.log2 + 1 by omega]⟩

private theorem isFinite_ofParts {negative : Bool} {significand : Nat} {exponent : Int} :
    (ofParts negative significand exponent).isFinite = true ↔ Canonical significand exponent := by
  unfold ofParts
  split_ifs with canonical <;> simp [isFinite, canonical]

/-- The nearest value to a number has the exponent that scales the number to fifty-three digits, or
the next one if its significand is carried over. -/
private theorem ofQuotient_one {n : Nat} (some : n ≠ 0) (negative : Bool) {guess : Int}
    (guessed : guess = (n.log2 : Int) - 52) {significand : Nat}
    (rounded : significand = roundQuotient (n * 2 ^ (-guess).toNat) (2 ^ guess.toNat)) :
    0x10000000000000 ≤ significand ∧ significand ≤ 0x20000000000000 ∧
      ofQuotient negative n 1
        = if significand = 0x20000000000000 then ofParts negative 0x10000000000000 (guess + 1)
          else ofParts negative significand guess := by
  obtain ⟨low, high⟩ := scaled_bounds some guess guessed
  simp only [Nat.reducePow] at low high
  have positive : 0 < 2 ^ guess.toNat := Nat.two_pow_pos _
  have full : 0x10000000000000 ≤ n * 2 ^ (-guess).toNat / 2 ^ guess.toNat :=
    (Nat.le_div_iff_mul_le positive).mpr low
  refine ⟨?_, ?_, ?_⟩
  · exact rounded ▸ Nat.le_trans full (le_roundQuotient _ _)
  · exact rounded ▸ roundQuotient_le positive (Nat.le_of_lt high)
  · have exponent : max guess (-1074) = guess := by omega
    simp only [ofQuotient, Nat.shiftLeft_eq, show Nat.log2 1 = 0 from rfl, Nat.cast_zero, sub_zero,
      Nat.one_mul]
    rw [← guessed, if_neg (Nat.not_lt.mpr full), exponent, ← rounded]

/-- The nearest value to a number is finite if the number is below the least one that is not in
range. -/
theorem isFinite_ofQuotient_iff {n : Nat} (some : n ≠ 0) (negative : Bool) :
    (ofQuotient negative n 1).isFinite = true ↔ n < leastOverflow := by
  obtain ⟨least, most, same⟩ := ofQuotient_one some negative rfl rfl
  have low : 2 ^ n.log2 ≤ n := Nat.log2_self_le some
  have high : n < 2 ^ (n.log2 + 1) := Nat.lt_log2_self
  rw [same]
  obtain small | last | large := Nat.lt_trichotomy n.log2 1023
  · have below : 2 ^ (n.log2 + 1) ≤ leastOverflow := by
      have power : 2 ^ (n.log2 + 1) ≤ 2 ^ 53 * 2 ^ (topExponent - 1) := by
        rw [← Nat.pow_add]
        exact Nat.pow_le_pow_right Nat.two_pos (by simp only [topExponent]; omega)
      exact Nat.le_trans power (Nat.mul_le_mul_right _ (by decide))
    refine iff_of_true ?_ (Nat.lt_of_lt_of_le high below)
    split_ifs with carried
    · exact isFinite_ofParts.mpr ⟨by decide, by omega, by omega, .inl (Nat.le_refl _)⟩
    · exact isFinite_ofParts.mpr
        ⟨Nat.lt_of_le_of_ne most carried, by omega, by omega, .inl least⟩
  · -- Among the numbers of the greatest exponent the carry decides.
    have scaled : roundQuotient (n * 2 ^ (-((n.log2 : Int) - 52)).toNat)
        (2 ^ ((n.log2 : Int) - 52).toNat) = roundQuotient n (2 * 2 ^ (topExponent - 1)) := by
      have up : (-((n.log2 : Int) - 52)).toNat = 0 := by omega
      have down : ((n.log2 : Int) - 52).toNat = topExponent := by
        rw [last]
        rfl
      rw [up, down, ← two_pow_topExponent, Nat.pow_zero, Nat.mul_one]
    have kept := @roundQuotient_le_iff n (2 ^ (topExponent - 1)) (2 ^ 53 - 1) (Nat.two_pow_pos _)
      (by decide)
    rw [scaled] at least most ⊢
    rw [last, leastOverflow, show 2 ^ 54 - 1 = 2 * (2 ^ 53 - 1) + 1 from rfl, ← kept]
    split_ifs with carried
    · rw [isFinite_ofParts, carried]
      refine iff_of_false ?_ (by decide)
      rintro ⟨_, _, within, _⟩
      omega
    · rw [isFinite_ofParts]
      refine iff_of_true ⟨?_, by decide, by decide, .inl least⟩ ?_ <;> omega
  · have beyond : leastOverflow ≤ 2 ^ n.log2 := by
      have power : 2 ^ 54 * 2 ^ (topExponent - 1) ≤ 2 ^ n.log2 := by
        rw [← Nat.pow_add]
        exact Nat.pow_le_pow_right Nat.two_pos (by simp only [topExponent]; omega)
      exact Nat.le_trans (Nat.mul_le_mul_right _ (by decide)) power
    refine iff_of_false ?_ (Nat.not_lt.mpr (Nat.le_trans beyond low))
    split_ifs <;> rw [isFinite_ofParts] <;> rintro ⟨_, _, within, _⟩ <;> omega

private theorem ofQuotient_ne_nan (negative : Bool) (num den : Nat) :
    ofQuotient negative num den ≠ nan := by
  simp only [ofQuotient, ofParts]
  split_ifs <;> exact nofun

/-- Which integers are in range. -/
theorem isSome_ofInt?_iff {i : Int} : (ofInt? i).isSome = true ↔ i.natAbs < leastOverflow := by
  unfold ofInt?
  split_ifs with zero
  · simp only [zero, Int.natAbs_zero, Option.isSome_some, true_iff]
    exact Nat.mul_pos (by decide) (Nat.two_pow_pos _)
  · rw [← isFinite_ofQuotient_iff (Int.natAbs_ne_zero.mpr zero) (decide (i < 0))]
    have number := ofQuotient_ne_nan (decide (i < 0)) i.natAbs 1
    generalize ofQuotient (decide (i < 0)) i.natAbs 1 = x at number ⊢
    cases x with
    | nan => exact absurd rfl number
    | infinite | finite => simp [isFinite]

theorem isSome_ofInt? {i : Int} (below : i.natAbs ≤ largest) : (ofInt? i).isSome = true :=
  isSome_ofInt?_iff.mpr (Nat.lt_of_le_of_lt below largest_lt_leastOverflow)

theorem isSome_ofInt?_of_lt {i : Int} (low : 0 ≤ i) (high : i < 2 ^ 64) :
    (ofInt? i).isSome = true := by
  have power : 2 ^ 64 ≤ 2 ^ topExponent := Nat.pow_le_pow_right Nat.two_pos (by decide)
  have small : 2 ^ 64 ≤ largest := Nat.le_trans power (Nat.le_mul_of_pos_left _ (by decide))
  exact isSome_ofInt? (Nat.le_trans (by omega) small)

private theorem abs_toRat?_le {x : Binary64} {r : Rat} (value : x.toRat? = some r) :
    |r| ≤ (largest : Rat) := by
  cases x with
  | nan => simp [toRat?] at value
  | infinite _ => simp [toRat?] at value
  | finite negative significand exponent canonical =>
    obtain ⟨digits, _, high, _⟩ := canonical
    have power : (2 : Rat) ^ exponent ≤ 2 ^ topExponent := by
      rw [← zpow_natCast]
      exact zpow_le_zpow_right₀ (by norm_num) high
    have first : (significand : Rat) ≤ (2 ^ 53 - 1 : Nat) :=
      Nat.cast_le.mpr (Nat.le_sub_one_of_lt digits)
    have positive : (0 : Rat) ≤ 2 ^ exponent := zpow_nonneg (by norm_num) exponent
    have magnitude : |r| = (significand : Rat) * (2 : Rat) ^ exponent := by
      have product : (0 : Rat) ≤ significand * 2 ^ exponent :=
        mul_nonneg (Nat.cast_nonneg significand) positive
      simp only [toRat?, Option.some.injEq] at value
      rw [← value]
      cases negative <;> simp [abs_of_nonneg product]
    rw [magnitude, largest, Nat.cast_mul, Nat.cast_pow, Nat.cast_ofNat]
    exact mul_le_mul first power positive (Nat.cast_nonneg _)

/-- Cutting off a fraction rounds a positive value down and a negative one up. -/
theorem truncate?_eq_some {x : Binary64} {i : Int} : x.truncate? = some i ↔
    ∃ r, x.toRat? = some r ∧ i = if 0 ≤ r then ⌊r⌋ else ⌈r⌉ := by
  have whole (r : Rat) : r.num.tdiv r.den = if 0 ≤ r then ⌊r⌋ else ⌈r⌉ := by
    split_ifs with sign
    · rw [Rat.floor_def', Int.tdiv_eq_ediv_of_nonneg (Rat.num_nonneg.mpr sign)]
    · have negative : 0 ≤ -r.num := by
        have below := Rat.num_nonneg.not.mpr sign
        omega
      rw [Rat.ceil_def', ← Int.tdiv_eq_ediv_of_nonneg negative, Int.neg_tdiv, neg_neg]
  simp only [truncate?, Option.map_eq_some_iff, whole, @eq_comm _ i]

/-- What a finite value is rounded up to is in range. -/
theorem isSome_ofInt?_of_ceil? {x : Binary64} {i : Int} (rounded : x.ceil? = some i) :
    (ofInt? i).isSome = true := by
  simp only [ceil?, Option.map_eq_some_iff] at rounded
  obtain ⟨r, value, rfl⟩ := rounded
  obtain ⟨low, high⟩ := abs_le.mp (abs_toRat?_le value)
  have upper : ⌈r⌉ ≤ (largest : Int) := Int.ceil_le.mpr (by exact_mod_cast high)
  have lower : -(largest : Int) ≤ ⌈r⌉ := by
    exact_mod_cast low.trans (Int.le_ceil r)
  rw [← Rat.ceil_def']
  exact isSome_ofInt? (by omega)

end Intake.Binary64
