import Intake.Proofs.Json.Readers

/-! Texts beyond the limits of reading: brackets that open more levels than are followed, and
integers of more digits than the limit. -/
namespace Intake.Json

private theorem skipSpace_brackets (n : Nat) :
    skipSpace (List.replicate n (.scalar '[')) = List.replicate n (.scalar '[') := by
  cases n with
  | zero => rfl
  | succ n => simp [skipSpace, isSpace, List.replicate_succ]

private theorem readValue_brackets (depth more fuel : Nat) :
    readValue (2 * depth + fuel + 1) depth (List.replicate (depth + more + 1) (.scalar '['))
      = .error .nested := by
  induction depth with
  | zero => simp [readValue, List.replicate_succ]
  | succ depth ih =>
    -- The first bracket opens a list, whose first item is what the others begin.
    have items : readItems (2 * depth + fuel + 2) depth
        (List.replicate (depth + more + 1) (.scalar '[')) = .error .nested := by
      rw [readItems, ih]
      rfl
    have split : List.replicate (depth + 1 + more + 1) (CodePoint.scalar '[')
        = .scalar '[' :: .scalar '[' :: List.replicate (depth + more) (.scalar '[') := by
      rw [show depth + 1 + more + 1 = (depth + more) + 1 + 1 by omega, List.replicate_succ,
        List.replicate_succ]
    have rest := skipSpace_brackets (depth + more + 1)
    rw [List.replicate_succ] at rest items
    rw [show 2 * (depth + 1) + fuel + 1 = (2 * depth + fuel + 2) + 1 by omega, split, readValue,
      rest]
    exact congrArg (Except.map fun r => (list r.1, r.2)) items

/-- A text of opening brackets, more of them than are followed, is not read. -/
theorem read_brackets {n : Nat} (deep : depthLimit < n) :
    read (List.replicate n (.scalar '[')) = .error .nested := by
  obtain ⟨more, rfl⟩ := Nat.exists_eq_add_of_lt deep
  have value := readValue_brackets depthLimit more (2 * more + 3)
  rw [show 2 * depthLimit + (2 * more + 3) + 1 = 2 * (depthLimit + more + 1) + 2 by omega] at value
  have unmarked : (List.replicate (depthLimit + more + 1) (CodePoint.scalar '[')).head?
      ≠ some Text.byteOrderMark := by
    simp [List.replicate_succ, Text.byteOrderMark]
  rw [read, if_neg unmarked, skipSpace_brackets, List.length_replicate, value]
  rfl

theorem digitLimit_lt_length {n : Nat} (long : 10 ^ digitLimit ≤ n) :
    digitLimit < (digitValues n).length := by
  rw [digitValues, charValues, List.length_map, ← Nat.not_le]
  exact fun short =>
    absurd ((Nat.length_toDigits_le_iff (by decide) (by decide)).mp short) (Nat.not_lt.mpr long)

private theorem readNumber_overlong {n : Nat} (long : 10 ^ digitLimit ≤ n) :
    readNumber false (Text.ofNat n) = .error (.digits (digitValues n).length) := by
  have beyond := digitLimit_lt_length long
  have closed : Undigited [] := fun c rest same => by cases same
  have whole := takeWhole_ofNat n closed
  rw [List.append_nil] at whole
  generalize digitValues n = values at beyond whole
  cases values with
  | nil => simp at beyond
  | cons digit values =>
    have none : takeFraction [] = (none, []) ∧ takeExponent [] = (none, []) := ⟨rfl, rfl⟩
    simp only [readNumber, whole, none]
    rw [if_pos beyond]

/-- An integer with more digits than the limit is not read. -/
theorem read_overlong {n : Nat} (long : 10 ^ digitLimit ≤ n) :
    read (Text.ofNat n) = .error (.digits (digitValues n).length) := by
  obtain ⟨c, rest, same, digit⟩ := ofNat_head n
  have number := readNumber_overlong long
  rw [same] at number ⊢
  have other {d : Char} (mark : d.isDigit = false) : c ≠ d := by
    rintro rfl
    simp [mark] at digit
  have unmarked : (.scalar c :: rest : Text).head? ≠ some Text.byteOrderMark := by
    simp [Text.byteOrderMark, other]
  have shown : skipSpace (.scalar c :: rest) = .scalar c :: rest := by
    simp [skipSpace, isSpace, other]
  have value (fuel depth : Nat) : readValue (fuel + 1) depth (.scalar c :: rest)
      = .error (.digits (digitValues n).length) := by
    rw [← number, ← readPlain_digit digit, readValue]
    · simp [other]
    · simp [other]
    · simp [other]
  simp only [read, unmarked, shown, value]
  rfl

end Intake.Json
