import Intake.Proofs.Number.Shortest

/-! A quotient of two numbers of fifty-three digits, rounded and then rounded up, is the quotient
rounded up. So is a quotient below one, unless it is too small for any value but zero. Rounding never
carries a number across a value. -/
namespace Intake.Binary64

/-- A quotient that is rounded to a number at most exceeds that number by a half at most. -/
theorem le_of_roundQuotient_le {num den bound : Nat} (divides : 0 < den)
    (below : roundQuotient num den ≤ bound) : 2 * num ≤ (2 * bound + 1) * den := by
  have split := Nat.div_add_mod num den
  have rest := Nat.mod_lt num divides
  have rounded : 2 * num ≤ (2 * roundQuotient num den + 1) * den := by
    rw [Nat.add_mul, Nat.one_mul, Nat.mul_assoc, Nat.mul_comm (roundQuotient num den)]
    unfold roundQuotient
    dsimp only
    split_ifs
    · omega
    · rw [Nat.mul_succ]
      omega
    · rw [Nat.mul_add]
      omega
  exact rounded.trans (Nat.mul_le_mul_right _ (by omega))

variable {num den : Nat}

/-- The scale of a quotient brings it to fifty-three digits. -/
theorem scaled_digits (some : 0 < num) (divides : 0 < den) {exponent : Int}
    (scaled : exponent = scaleOf num den) :
    2 ^ 52 * (den * 2 ^ exponent.toNat) ≤ num * 2 ^ (-exponent).toNat ∧
      num * 2 ^ (-exponent).toNat < 2 ^ 53 * (den * 2 ^ exponent.toNat) := by
  have positive : (0 : ℚ) < (num : ℚ) / den := by positivity
  have power : (0 : ℚ) < 2 ^ exponent := by positivity
  have divisor : (0 : ℚ) < ((den * 2 ^ exponent.toNat : Nat) : ℚ) := by positivity
  have log : Int.log 2 ((num : ℚ) / den) = 52 + exponent := by
    rw [scaled, scaleOf]
    omega
  have low := Int.zpow_log_le_self Nat.one_lt_two positive
  have high := Int.lt_zpow_succ_log_self Nat.one_lt_two ((num : ℚ) / den)
  have ratio := shifted_div num den exponent
  rw [zpow_neg, ← div_eq_mul_inv] at ratio
  rw [log, Nat.cast_ofNat, zpow_add₀ two_ne_zero, ← le_div_iff₀ power, ← ratio,
    le_div_iff₀ divisor] at low
  rw [log, add_right_comm, Nat.cast_ofNat, zpow_add₀ two_ne_zero, ← div_lt_iff₀ power, ← ratio,
    div_lt_iff₀ divisor] at high
  exact ⟨by exact_mod_cast low, by exact_mod_cast high⟩

/-- The nearest value to a quotient whose scale is in range is finite. -/
theorem toRat?_ofQuotient (some : 0 < num) (divides : 0 < den) {exponent : Int}
    (scaled : exponent = scaleOf num den) (least : -1074 ≤ exponent) (most : exponent ≤ 970) :
    (ofQuotient false num den).toRat? = .some
      (roundQuotient (num * 2 ^ (-exponent).toNat) (den * 2 ^ exponent.toNat)
        * (2 : ℚ) ^ exponent) := by
  obtain ⟨low, high⟩ := scaled_digits some divides scaled
  have scaled_pos : 0 < den * 2 ^ exponent.toNat := by positivity
  have same := ofQuotient_eq false some divides
    (show exponent = max (scaleOf num den) (-1074) by omega) rfl
  have full : 2 ^ 52 ≤ roundQuotient (num * 2 ^ (-exponent).toNat) (den * 2 ^ exponent.toNat) :=
    ((Nat.le_div_iff_mul_le scaled_pos).mpr low).trans (le_roundQuotient _ _)
  have short : roundQuotient (num * 2 ^ (-exponent).toNat) (den * 2 ^ exponent.toNat) ≤ 2 ^ 53 :=
    roundQuotient_le scaled_pos high.le
  rw [same]
  generalize roundQuotient (num * 2 ^ (-exponent).toNat) (den * 2 ^ exponent.toNat) = significand
    at full short
  split_ifs with carried
  · rw [ofParts_of_canonical ⟨by decide, by omega, by omega, .inl (by decide)⟩, carried]
    have power : (2 : ℚ) ^ (exponent + 1) = 2 ^ exponent * 2 := zpow_add_one₀ two_ne_zero exponent
    simp only [toRat?, power, Option.some.injEq]
    push_cast
    ring
  · rw [ofParts_of_canonical ⟨by omega, by omega, by omega, .inl full⟩]
    rfl

/-- The nearest value to a quotient with binary places: it is rounded to as many. -/
theorem toRat?_ofQuotient_places (some : 0 < num) (divides : 0 < den) {bits : Nat}
    (scaled : -(bits : Int) = scaleOf num den) (least : bits ≤ 1074) :
    2 ^ 52 * den ≤ num * 2 ^ bits ∧
      (ofQuotient false num den).toRat?
        = .some (roundQuotient (num * 2 ^ bits) den / (2 : ℚ) ^ bits) := by
  have up : (- -(bits : Int)).toNat = bits := by omega
  have down : (-(bits : Int)).toNat = 0 := by omega
  have low := (scaled_digits some divides scaled).1
  have value := toRat?_ofQuotient some divides scaled (by omega) (by omega)
  rw [up, down, Nat.pow_zero, Nat.mul_one] at low value
  rw [zpow_neg, ← div_eq_mul_inv, zpow_natCast] at value
  exact ⟨low, value⟩

/-- A quotient of a number of fifty-three digits that is scaled to as many is rounded to a multiple of
the scale at most if it was one at most: it cannot come nearer than a half to one that it
exceeds. -/
theorem roundQuotient_scaled {bits : Nat} (divides : 0 < den) (short : num ≤ 2 ^ 53)
    (scaled : 2 ^ 52 * den ≤ num * 2 ^ bits) (bound : Nat) :
    roundQuotient (num * 2 ^ bits) den ≤ bound * 2 ^ bits ↔ num ≤ bound * den := by
  constructor
  · intro rounded
    by_contra beyond
    obtain ⟨excess, rfl⟩ := Nat.exists_eq_add_of_lt (Nat.lt_of_not_le beyond)
    have near := le_of_roundQuotient_le divides rounded
    have positive : 0 < 2 ^ bits := Nat.two_pow_pos bits
    generalize 2 ^ bits = power at *
    have half : 2 * power * (excess + 1) ≤ den := by
      have expanded : 2 * ((bound * den + excess + 1) * power)
          = 2 * (bound * power) * den + 2 * power * (excess + 1) := by ring
      rw [expanded, Nat.add_mul, Nat.one_mul] at near
      omega
    -- So the divisor is twice the scale, and the number is the greatest one.
    have greatest : bound * den + excess + 1 = 2 ^ 53 := by
      refine Nat.le_antisymm short (Nat.le_of_mul_le_mul_right ?_ divides)
      calc 2 ^ 53 * den = 2 * (2 ^ 52 * den) := by ring
        _ ≤ 2 * ((bound * den + excess + 1) * power) := Nat.mul_le_mul_left 2 scaled
        _ = (bound * den + excess + 1) * (2 * power) := by ring
        _ ≤ (bound * den + excess + 1) * den := by
          refine Nat.mul_le_mul_left _ (Nat.le_trans ?_ half)
          exact Nat.le_mul_of_pos_right _ (Nat.succ_pos excess)
    have same : den = 2 * power ∧ excess = 0 := by
      rw [greatest] at scaled
      have upper : den ≤ 2 * power := by omega
      have single : 2 * power * (excess + 1) ≤ 2 * power * 1 := by omega
      have few := Nat.le_of_mul_le_mul_left single (by omega)
      rw [show excess = 0 by omega] at half
      omega
    obtain ⟨rfl, rfl⟩ := same
    have even : bound * (2 * power) = 2 * (bound * power) := by ring
    omega
  · intro within
    refine roundQuotient_le divides ?_
    rw [Nat.mul_right_comm]
    exact Nat.mul_le_mul_right _ within

/-- Rounding a quotient of two numbers of fifty-three digits changes nothing about what it is rounded
up to. -/
theorem ceil?_ofQuotient (some : 0 < num) (divides : 0 < den) (short : num ≤ 2 ^ 53)
    (short' : den ≤ 2 ^ 53) : (ofQuotient false num den).ceil? = .some ⌈(num : ℚ) / den⌉ := by
  have divisor : (0 : ℚ) < den := by exact_mod_cast divides
  have positive : (0 : ℚ) < (num : ℚ) / den := by positivity
  obtain ⟨exponent, scaled⟩ : ∃ exponent, exponent = scaleOf num den := ⟨_, rfl⟩
  have least : -1074 ≤ exponent := by
    have log : -53 ≤ Int.log 2 ((num : ℚ) / den) := by
      refine (Int.zpow_le_iff_le_log Nat.one_lt_two positive).mp ?_
      rw [le_div_iff₀ divisor, zpow_neg, inv_mul_le_iff₀ (by positivity)]
      exact_mod_cast show den ≤ 2 ^ 53 * num by omega
    rw [scaled, scaleOf]
    omega
  obtain whole | fraction := lt_or_ge 0 exponent
  · -- Only the greatest number, undivided, has a scale above one.
    obtain ⟨low, _⟩ := scaled_digits some divides scaled
    obtain ⟨bits, rfl⟩ : ∃ bits : Nat, exponent = bits + 1 := ⟨(exponent - 1).toNat, by omega⟩
    have up : (-((bits : Int) + 1)).toNat = 0 := by omega
    have down : ((bits : Int) + 1).toNat = bits + 1 := by omega
    have twice : den * 2 ^ (bits + 1) = den * 2 ^ bits * 2 := (Nat.mul_assoc ..).symm
    rw [up, down, Nat.pow_zero, Nat.mul_one, twice] at low
    have size : 0 < den * 2 ^ bits := by positivity
    have single : den * 2 ^ bits = 1 := by omega
    have undivided : den = 1 := Nat.eq_one_of_mul_eq_one_right single
    have greatest : num = 2 ^ 53 := by omega
    subst undivided greatest
    decide +kernel
  · obtain ⟨bits, rfl⟩ : ∃ bits : Nat, exponent = -bits := ⟨(-exponent).toNat, by omega⟩
    obtain ⟨low, value⟩ := toRat?_ofQuotient_places some divides scaled (by omega)
    simp only [ceil?, value, Option.map_some, Option.some.injEq, ← Rat.ceil_def']
    refine eq_of_forall_ge_iff fun bound => ?_
    have power : (0 : ℚ) < 2 ^ bits := by positivity
    rw [Int.ceil_le, Int.ceil_le, div_le_iff₀ power, div_le_iff₀ divisor]
    obtain negative | natural := lt_or_ge bound 0
    · have below : (bound : ℚ) < 0 := by exact_mod_cast negative
      have first : (bound : ℚ) * 2 ^ bits < 0 := mul_neg_of_neg_of_pos below power
      have second : (bound : ℚ) * den < 0 := mul_neg_of_neg_of_pos below divisor
      exact iff_of_false (first.trans_le (Nat.cast_nonneg _)).not_ge
        (second.trans_le (Nat.cast_nonneg _)).not_ge
    · obtain ⟨bound, rfl⟩ := Int.eq_ofNat_of_zero_le natural
      exact_mod_cast roundQuotient_scaled divides short low bound

/-! Quotients below one. -/

def leastPlaces : Nat := 1074

/-- A quotient below the least scale is rounded to a multiple of the least value. -/
theorem toRat?_ofQuotient_tiny (some : 0 < num) (divides : 0 < den)
    (tiny : num * 2 ^ (leastPlaces - 52) < den) :
    (ofQuotient false num den).toRat?
      = .some (roundQuotient (num * 2 ^ leastPlaces) den / (2 : ℚ) ^ leastPlaces) := by
  have divisor : (0 : ℚ) < den := by exact_mod_cast divides
  have positive : (0 : ℚ) < (num : ℚ) / den := by positivity
  have scale : scaleOf num den ≤ -1074 := by
    have log : Int.log 2 ((num : ℚ) / den) < -((leastPlaces - 52 : Nat) : Int) := by
      refine (Int.lt_zpow_iff_log_lt Nat.one_lt_two positive).mp ?_
      rw [div_lt_iff₀ divisor, zpow_neg, lt_inv_mul_iff₀ (by positivity), mul_comm]
      exact_mod_cast tiny
    have places : ((leastPlaces - 52 : Nat) : Int) = 1022 := rfl
    unfold scaleOf
    omega
  have few : roundQuotient (num * 2 ^ leastPlaces) den ≤ 2 ^ 52 := by
    refine roundQuotient_le divides ?_
    rw [← Nat.pow_sub_mul_pow 2 (show 52 ≤ leastPlaces by decide), ← Nat.mul_assoc, Nat.mul_comm]
    exact Nat.mul_le_mul_left _ tiny.le
  have same := ofQuotient_eq false some divides
    (show (-1074 : Int) = max (scaleOf num den) (-1074) from (max_eq_right scale).symm) rfl
  have up : (- -1074 : Int).toNat = leastPlaces := rfl
  have down : (-1074 : Int).toNat = 0 := rfl
  rw [up, down, Nat.pow_zero, Nat.mul_one, if_neg (by omega),
    ofParts_of_canonical ⟨by omega, by omega, by omega, .inr rfl⟩] at same
  have power : (2 : ℚ) ^ (-1074 : Int) = (2 ^ leastPlaces)⁻¹ := by
    rw [← zpow_natCast, ← zpow_neg]
    rfl
  simp [same, toRat?, power, div_eq_mul_inv]

/-- A value between nothing and one is rounded up to one, unless it is nothing. -/
theorem ceil?_of_share {x : Binary64} {significand places : Nat}
    (value : x.toRat? = .some (significand / (2 : ℚ) ^ places)) (share : significand ≤ 2 ^ places) :
    x.ceil? = .some (if significand = 0 then 0 else 1) := by
  have power : (0 : ℚ) < 2 ^ places := by positivity
  simp only [ceil?, value, Option.map_some, Option.some.injEq, ← Rat.ceil_def']
  split_ifs with none
  · simp [none]
  · rw [Int.ceil_eq_iff]
    have positive : (0 : ℚ) < significand := by exact_mod_cast Nat.pos_of_ne_zero none
    refine ⟨by simpa using div_pos positive power, ?_⟩
    rw [div_le_iff₀ power, Int.cast_one, one_mul]
    exact_mod_cast share

theorem roundQuotient_eq_zero_iff (divides : 0 < den) :
    roundQuotient num den = 0 ↔ 2 * num ≤ den := by
  constructor
  · intro none
    simpa using le_of_roundQuotient_le divides none.le
  · intro half
    have below : num < den := by omega
    simp only [roundQuotient, Nat.div_eq_of_lt below, Nat.mod_eq_of_lt below]
    split_ifs <;> omega

/-- A quotient below one is rounded up to one, unless it is at most half of the least value. -/
theorem ceil?_ofQuotient_of_lt (some : 0 < num) (below : num < den) :
    (ofQuotient false num den).ceil?
      = .some (if num * 2 ^ (leastPlaces + 1) ≤ den then 0 else 1) := by
  have divides : 0 < den := some.trans below
  have double : num * 2 ^ (leastPlaces + 1) = 2 * (num * 2 ^ leastPlaces) := by
    rw [Nat.pow_succ, ← Nat.mul_assoc, Nat.mul_comm]
  have share (places : Nat) : roundQuotient (num * 2 ^ places) den ≤ 2 ^ places :=
    roundQuotient_le divides (Nat.mul_comm den _ ▸ Nat.mul_le_mul_right _ below.le)
  obtain tiny | normal := Nat.lt_or_ge (num * 2 ^ (leastPlaces - 52)) den
  · rw [ceil?_of_share (toRat?_ofQuotient_tiny some divides tiny) (share _)]
    simp only [roundQuotient_eq_zero_iff divides, double]
  · have divisor : (0 : ℚ) < den := by exact_mod_cast divides
    have positive : (0 : ℚ) < (num : ℚ) / den := by positivity
    have low : -((leastPlaces - 52 : Nat) : Int) ≤ Int.log 2 ((num : ℚ) / den) := by
      refine (Int.zpow_le_iff_le_log Nat.one_lt_two positive).mp ?_
      rw [le_div_iff₀ divisor, zpow_neg, inv_mul_le_iff₀ (by positivity), mul_comm]
      exact_mod_cast normal
    have high : Int.log 2 ((num : ℚ) / den) < 0 := by
      refine (Int.lt_zpow_iff_log_lt Nat.one_lt_two positive).mp ?_
      rw [zpow_zero, div_lt_one divisor]
      exact_mod_cast below
    have places : ((leastPlaces - 52 : Nat) : Int) = 1022 := rfl
    obtain ⟨bits, scaled⟩ : ∃ bits : Nat, -(bits : Int) = scaleOf num den :=
      ⟨(-scaleOf num den).toNat, by unfold scaleOf; omega⟩
    have least : bits ≤ 1074 := by
      unfold scaleOf at scaled
      omega
    obtain ⟨digits, value⟩ := toRat?_ofQuotient_places some divides scaled least
    have shown : roundQuotient (num * 2 ^ bits) den ≠ 0 := by
      rw [Ne, roundQuotient_eq_zero_iff divides]
      omega
    have grid : num * 2 ^ (leastPlaces - 52) < num * 2 ^ (leastPlaces + 1) :=
      Nat.mul_lt_mul_of_pos_left (Nat.pow_lt_pow_right Nat.one_lt_two (by decide)) some
    rw [ceil?_of_share value (share _), if_neg shown, if_neg (by omega)]

/-! Rounding does not carry a number across a value. -/

theorem roundQuotient_shifted_le (divides : 0 < den) {scale : Int} {bound : Nat}
    (below : (num : ℚ) / den ≤ bound * (2 : ℚ) ^ scale) :
    roundQuotient (num * 2 ^ (-scale).toNat) (den * 2 ^ scale.toNat) ≤ bound := by
  have divisor : 0 < den * 2 ^ scale.toNat := by positivity
  have shifted := shifted_div num den scale
  rw [zpow_neg, ← div_eq_mul_inv, div_eq_iff (by positivity)] at shifted
  have product := mul_le_mul_of_nonneg_right ((div_le_iff₀ (by positivity)).mpr below)
    (show (0 : ℚ) ≤ ((den * 2 ^ scale.toNat : Nat) : ℚ) by positivity)
  rw [← shifted] at product
  exact roundQuotient_le divisor (by exact_mod_cast product)

/-- What is rounded on a scale in range is finite, whether it is carried to the next scale or not. -/
theorem toRat?_carried {rounded : Nat} {scale : Int} (digits : rounded ≤ 2 ^ 53)
    (full : 2 ^ 52 ≤ rounded ∨ scale = -1074) (least : -1074 ≤ scale) (most : scale ≤ 971)
    (carries : rounded = 2 ^ 53 → scale < 971) :
    (if rounded = 2 ^ 53 then ofParts false (2 ^ 52) (scale + 1)
      else ofParts false rounded scale).toRat? = some (rounded * (2 : ℚ) ^ scale) := by
  split_ifs with carried
  · have finer := carries carried
    subst carried
    rw [ofParts_of_canonical ⟨by decide, by omega, by omega, .inl (by decide)⟩]
    simp only [toRat?, zpow_add_one₀ (two_ne_zero : (2 : ℚ) ≠ 0), Option.some.injEq]
    push_cast
    ring
  · rw [ofParts_of_canonical ⟨by omega, least, most, full⟩]
    rfl

theorem toRat?_ofQuotient_le (some : 0 < num) (divides : 0 < den) {significand : Nat}
    {exponent : Int} (canonical : Canonical significand exponent)
    (below : (num : ℚ) / den ≤ significand * (2 : ℚ) ^ exponent) :
    ∃ v, (ofQuotient false num den).toRat? = .some v ∧ 0 ≤ v ∧
      v ≤ significand * (2 : ℚ) ^ exponent := by
  obtain ⟨short, least, most, -⟩ := canonical
  have positive : (0 : ℚ) < (num : ℚ) / den := by positivity
  have two : (2 : ℚ) ≠ 0 := two_ne_zero
  obtain ⟨scale, scaled⟩ : ∃ scale, scale = max (scaleOf num den) (-1074) := ⟨_, rfl⟩
  have finer : scale ≤ exponent := by
    have log : Int.log 2 ((num : ℚ) / den) < 53 + exponent := by
      refine (Int.lt_zpow_iff_log_lt Nat.one_lt_two positive).mp (below.trans_lt ?_)
      rw [Nat.cast_ofNat, zpow_add₀ two]
      have digits : (significand : ℚ) < 2 ^ (53 : Int) := by exact_mod_cast short
      gcongr
    unfold scaleOf at scaled
    omega
  obtain ⟨rest, rfl⟩ : ∃ rest : Nat, exponent = scale + rest :=
    ⟨(exponent - scale).toNat, by omega⟩
  have grid : (significand : ℚ) * 2 ^ (scale + rest)
      = (significand * 2 ^ rest : Nat) * 2 ^ scale := by
    rw [zpow_add₀ two, zpow_natCast]
    push_cast
    ring
  have bounded := roundQuotient_shifted_le divides (grid ▸ below)
  have digits : roundQuotient (num * 2 ^ (-scale).toNat) (den * 2 ^ scale.toNat) ≤ 2 ^ 53 := by
    refine roundQuotient_shifted_le divides ?_
    refine (Int.lt_zpow_succ_log_self Nat.one_lt_two ((num : ℚ) / den)).le.trans ?_
    rw [Nat.cast_pow, Nat.cast_ofNat, ← zpow_natCast, ← zpow_add₀ two]
    refine zpow_le_zpow_right₀ one_le_two ?_
    unfold scaleOf at scaled
    push_cast
    omega
  have full : 2 ^ 52 ≤ roundQuotient (num * 2 ^ (-scale).toNat) (den * 2 ^ scale.toNat) ∨
      scale = -1074 := by
    obtain normal | tiny := le_total (-1074) (scaleOf num den)
    · have low := (scaled_digits some divides (scaled.trans (max_eq_left normal))).1
      exact .inl (((Nat.le_div_iff_mul_le (by positivity)).mpr low).trans (le_roundQuotient _ _))
    · exact .inr (scaled.trans (max_eq_right tiny))
  rw [ofQuotient_eq false some divides scaled rfl, grid]
  generalize roundQuotient (num * 2 ^ (-scale).toNat) (den * 2 ^ scale.toNat) = rounded
    at bounded digits full
  refine ⟨rounded * 2 ^ scale, toRat?_carried digits full (by omega) (by omega) ?_, by positivity, ?_⟩
  · rintro rfl
    have coarser : rest ≠ 0 := by
      rintro rfl
      omega
    omega
  · exact mul_le_mul_of_nonneg_right (by exact_mod_cast bounded) (by positivity)

theorem toRat?_zero (negative : Bool) : (zero negative).toRat? = some 0 := by
  rw [zero, ofParts_of_canonical (by decide)]
  cases negative <;> simp [toRat?]

theorem ofRat_eq_ofQuotient {r : ℚ} (positive : 0 < r) :
    ofRat r = ofQuotient false r.num.natAbs r.den := by
  simp [ofRat, positive.ne', positive.not_gt]

theorem shape_of_toRat? {x : Binary64} {r : ℚ} (value : x.toRat? = some r) (natural : 0 ≤ r) :
    ∃ significand exponent, Canonical significand exponent ∧
      r = significand * (2 : ℚ) ^ exponent := by
  cases x with
  | nan | infinite => cases value
  | finite negative significand exponent canonical =>
    refine ⟨significand, exponent, canonical, ?_⟩
    have magnitude : (0 : ℚ) ≤ significand * (2 : ℚ) ^ exponent := by positivity
    obtain rfl := Option.some.inj value
    cases negative with
    | false => rfl
    | true =>
      simp only [if_true, neg_nonneg] at natural ⊢
      rw [natural.antisymm magnitude, neg_zero]

/-- A number that does not exceed a value is rounded to one that does not. -/
theorem toRat?_ofRat_le {r bound : ℚ} (natural : 0 ≤ r) {y : Binary64}
    (limit : y.toRat? = some bound) (below : r ≤ bound) :
    ∃ v, (ofRat r).toRat? = some v ∧ 0 ≤ v ∧ v ≤ bound := by
  obtain rfl | positive := natural.eq_or_lt
  · exact ⟨0, toRat?_zero false, le_rfl, below⟩
  · obtain ⟨significand, exponent, canonical, rfl⟩ := shape_of_toRat? limit (natural.trans below)
    have num_pos : 0 < r.num := Rat.num_pos.mpr positive
    have quotient : (r.num.natAbs : ℚ) / r.den = r := by
      rw [← Int.cast_natCast r.num.natAbs, Int.natAbs_of_nonneg num_pos.le]
      exact r.num_div_den
    rw [ofRat_eq_ofQuotient positive]
    exact toRat?_ofQuotient_le (by omega) r.den_pos canonical (quotient.le.trans below)

theorem le_of_toRat?_ofRat {r v bound : ℚ} (natural : 0 ≤ r)
    (rounded : (ofRat r).toRat? = some v) {y : Binary64} (limit : y.toRat? = some bound)
    (below : r ≤ bound) : v ≤ bound := by
  obtain ⟨_, same, -, most⟩ := toRat?_ofRat_le natural limit below
  rwa [Option.some.inj (rounded.symm.trans same)]

/-! Whole numbers that are values. -/

theorem toRat?_ofRat_exact {significand exponent : Nat} (canonical : Canonical significand exponent) :
    (ofRat (significand * 2 ^ exponent : Nat)).toRat?
      = some ((significand * 2 ^ exponent : Nat) : ℚ) := by
  obtain rfl | some := Nat.eq_zero_or_pos significand
  · rw [Nat.zero_mul]
    exact toRat?_zero false
  · have natural : (0 : ℚ) < (significand * 2 ^ exponent : Nat) := by positivity
    have exact := ofQuotient_exact false canonical some
    rw [Int.toNat_natCast, Int.toNat_neg_natCast, Nat.pow_zero] at exact
    rw [ofRat_eq_ofQuotient natural, Rat.num_natCast, Rat.den_natCast, Int.natAbs_natCast, exact]
    simp [toRat?]

theorem toRat?_ofRat_natCast {n : Nat} (short : n < 2 ^ 53) : (ofRat n).toRat? = some (n : ℚ) := by
  obtain rfl | some := Nat.eq_zero_or_pos n
  · exact toRat?_zero false
  · have natural : (0 : ℚ) < n := by exact_mod_cast some
    obtain ⟨bits, sum⟩ : ∃ bits, n.log2 + bits = 52 := by
      have small : n.log2 < 53 := (Nat.log2_lt some.ne').mpr short
      exact ⟨52 - n.log2, by omega⟩
    have low : 2 ^ 52 ≤ n * 2 ^ bits := by
      rw [← sum, Nat.pow_add]
      exact Nat.mul_le_mul_right _ (Nat.log2_self_le some.ne')
    have high : n * 2 ^ bits < 2 ^ 53 := by
      rw [show 53 = n.log2 + 1 + bits by omega, Nat.pow_add]
      exact Nat.mul_lt_mul_of_pos_right Nat.lt_log2_self (Nat.two_pow_pos bits)
    have canonical : Canonical (n * 2 ^ bits) (-bits) := ⟨high, by omega, by omega, .inl low⟩
    have exact := ofQuotient_exact false canonical (by positivity)
    have scaled := ofQuotient_mul false some Nat.one_pos (Nat.two_pow_pos bits)
    rw [neg_neg, Int.toNat_natCast, Int.toNat_neg_natCast, Nat.pow_zero, Nat.mul_one] at exact
    rw [Nat.one_mul] at scaled
    rw [ofRat_eq_ofQuotient natural, Rat.num_natCast, Rat.den_natCast, Int.natAbs_natCast, ← scaled,
      exact]
    simp [toRat?]

/-- A value without its fraction is a value. -/
theorem toRat?_ofRat_floor {x : Binary64} {r : ℚ} (value : x.toRat? = some r) (natural : 0 ≤ r) :
    (ofRat ⌊r⌋).toRat? = some (⌊r⌋ : ℚ) := by
  obtain ⟨significand, exponent, canonical, rfl⟩ := shape_of_toRat? value natural
  obtain whole | fraction := Int.le_total 0 exponent
  · obtain ⟨n, rfl⟩ := Int.eq_ofNat_of_zero_le whole
    have same : (significand : ℚ) * 2 ^ (n : Int) = (significand * 2 ^ n : Nat) := by
      push_cast
      rw [zpow_natCast]
    rw [same, Int.floor_natCast]
    exact toRat?_ofRat_exact canonical
  · have short : (significand : ℚ) * 2 ^ exponent < 2 ^ 53 := by
      have digits : (significand : ℚ) < 2 ^ 53 := by exact_mod_cast canonical.1
      have power : (2 : ℚ) ^ exponent ≤ 1 := zpow_le_one_of_nonpos₀ one_le_two fraction
      exact (mul_le_of_le_one_right (Nat.cast_nonneg _) power).trans_lt digits
    have below : ⌊(significand : ℚ) * 2 ^ exponent⌋ < 2 ^ 53 :=
      Int.floor_lt.mpr (by exact_mod_cast short)
    obtain ⟨n, same⟩ := Int.eq_ofNat_of_zero_le (Int.floor_nonneg.mpr natural)
    rw [same] at below ⊢
    exact toRat?_ofRat_natCast (by omega)

end Intake.Binary64
