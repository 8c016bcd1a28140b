import Intake.Json.Reader
import Intake.Proofs.Json.Plain
import Intake.Proofs.Number.Shortest
import Mathlib.Tactic.IntervalCases
import Mathlib.Tactic.Ring

/-! Numbers are read back from their written forms: integers from their digits, and finite values
from the digits of a decimal, which stand before and behind a point or before an exponent. -/
namespace Intake.Json

def charValues (chars : List Char) : List Nat := chars.map fun c => c.toNat - 48

def digitValues (n : Nat) : List Nat := charValues (Nat.toDigits 10 n)

theorem numberOfDigits_digitValues (n : Nat) : numberOfDigits 10 (digitValues n) = n := by
  have same (chars : List Char) (total : Nat) :
      (chars.map fun c => c.toNat - 48).foldl (fun total digit => total * 10 + digit) total
        = Nat.ofDigitChars 10 chars total := by
    induction chars generalizing total with
    | nil => simp
    | cons c chars ih => simp [Nat.ofDigitChars_cons, ih, Nat.mul_comm]
  rw [numberOfDigits, digitValues, charValues, same, Nat.ofDigitChars_ten_toDigits]

theorem length_digitValues {n : Nat} (short : n < 10 ^ digitLimit) :
    (digitValues n).length ≤ digitLimit := by
  rw [digitValues, charValues, List.length_map]
  exact (Nat.length_toDigits_le_iff (by decide) (by decide)).mpr short

def Undigited (tail : Text) : Prop := ∀ c rest, tail = c :: rest → c.asciiDigit? = none

theorem asciiDigit?_scalar {c : Char} (digit : c.isDigit = true) :
    CodePoint.asciiDigit? (.scalar c) = some (c.toNat - 48) := by
  simp only [Char.isDigit, Bool.and_eq_true, decide_eq_true_eq, ge_iff_le, UInt32.le_iff_toNat_le]
    at digit
  have low : 0x30 ≤ c.toNat := digit.1
  have high : c.toNat ≤ 0x39 := digit.2
  simp [CodePoint.asciiDigit?, CodePoint.value, low, high]

theorem takeDigits_scalars {chars : List Char} (all : ∀ c ∈ chars, c.isDigit = true) {tail : Text}
    (undigited : Undigited tail) :
    Text.takeDigits (chars.map .scalar ++ tail) = (charValues chars, tail) := by
  induction chars with
  | nil =>
    cases tail with
    | nil => rfl
    | cons c rest => simp [Text.takeDigits, undigited c rest rfl, charValues]
  | cons c chars ih =>
    have rest := ih fun d here => all d (List.mem_cons_of_mem _ here)
    simp [Text.takeDigits, asciiDigit?_scalar (all c List.mem_cons_self), rest, charValues]

theorem isDigit_toDigits (n : Nat) : ∀ c ∈ Nat.toDigits 10 n, c.isDigit = true :=
  fun _ here => Nat.isDigit_of_mem_toDigits (by decide) (by decide) here

theorem takeDigits_ofNat (n : Nat) {tail : Text} (undigited : Undigited tail) :
    Text.takeDigits (Text.ofNat n ++ tail) = (digitValues n, tail) :=
  takeDigits_scalars (isDigit_toDigits n) undigited

theorem toDigits_head {n : Nat} (positive : 0 < n) :
    ∃ c rest, Nat.toDigits 10 n = c :: rest ∧ c ≠ '0' := by
  induction n using Nat.strongRecOn with
  | ind n ih =>
    rw [Nat.toDigits_eq_if (by decide)]
    split_ifs with small
    · refine ⟨_, _, rfl, ?_⟩
      interval_cases n <;> decide
    · obtain ⟨c, rest, same, nonzero⟩ := ih (n / 10) (by omega) (by omega)
      exact ⟨c, rest ++ [(n % 10).digitChar], by rw [same]; rfl, nonzero⟩

def IsWhole (chars : List Char) : Prop :=
  chars = ['0'] ∨ ∃ c rest, chars = c :: rest ∧ c ≠ '0'

theorem isWhole_toDigits (n : Nat) : IsWhole (Nat.toDigits 10 n) := by
  rcases Nat.eq_zero_or_pos n with rfl | positive
  · exact .inl rfl
  · exact .inr (toDigits_head positive)

theorem takeWhole_scalars {chars : List Char} (all : ∀ c ∈ chars, c.isDigit = true)
    (whole : IsWhole chars) {tail : Text} (undigited : Undigited tail) :
    takeWhole (chars.map .scalar ++ tail) = (charValues chars, tail) := by
  rcases whole with rfl | ⟨c, rest, rfl, nonzero⟩
  · rfl
  · rw [takeWhole]
    · exact takeDigits_scalars all undigited
    · intro rest' first
      simp only [List.map_cons, List.cons_append, List.cons.injEq, CodePoint.scalar.injEq] at first
      exact nonzero first.1

theorem takeWhole_ofNat (n : Nat) {tail : Text} (undigited : Undigited tail) :
    takeWhole (Text.ofNat n ++ tail) = (digitValues n, tail) :=
  takeWhole_scalars (isDigit_toDigits n) (isWhole_toDigits n) undigited

def Closed (tail : Text) : Prop :=
  tail = [] ∨ ∃ c rest, tail = .scalar c :: rest ∧ (c = ',' ∨ c = ']' ∨ c = '\x7d')

theorem Closed.undigited {tail : Text} (closed : Closed tail) : Undigited tail := by
  rintro c rest rfl
  rcases closed with none | ⟨mark, _, same, rfl | rfl | rfl⟩
  · cases none
  all_goals
    cases same
    rfl

theorem Closed.takeFraction {tail : Text} (closed : Closed tail) :
    Json.takeFraction tail = (none, tail) := by
  rcases closed with rfl | ⟨mark, rest, rfl, rfl | rfl | rfl⟩ <;> rfl

theorem Closed.takeExponent {tail : Text} (closed : Closed tail) :
    Json.takeExponent tail = (none, tail) := by
  rcases closed with rfl | ⟨mark, rest, rfl, rfl | rfl | rfl⟩ <;> rfl

theorem readNumber_ofNat {n : Nat} (short : n < 10 ^ digitLimit) (negative : Bool) {tail : Text}
    (closed : Closed tail) :
    readNumber negative (Text.ofNat n ++ tail)
      = .ok (integer (if negative then -(n : Int) else n), tail) := by
  have fraction := closed.takeFraction
  have exponent := closed.takeExponent
  have whole := takeWhole_ofNat n closed.undigited
  have digits := length_digitValues short
  have number := numberOfDigits_digitValues n
  have some : digitValues n ≠ [] := by simp [digitValues, charValues]
  generalize digitValues n = values at whole digits number some
  cases values with
  | nil => exact absurd rfl some
  | cons digit values =>
    simp only [readNumber, whole, fraction, exponent]
    rw [if_neg (Nat.not_lt.mpr digits), number]

theorem readPlain_digit {c : Char} (digit : c.isDigit = true) (rest : Text) :
    readPlain (.scalar c :: rest) = readNumber false (.scalar c :: rest) := by
  have other {d : Char} (letter : d.isDigit = false) : d ≠ c := by
    rintro rfl
    simp [letter] at digit
  have noWord : words.findSome? (fun word =>
      (Text.dropStart? word.1 (.scalar c :: rest)).map (word.2, ·)) = none := by
    simp [words, Text.ofString, Text.dropStart?, other]
  simp only [readPlain, noWord]
  split
  · rename_i same
    simp only [List.cons.injEq, CodePoint.scalar.injEq] at same
    exact absurd same.1.symm (other rfl)
  · rfl

theorem readPlain_minus {c : Char} (digit : c.isDigit = true) (rest : Text) :
    readPlain (.scalar '-' :: .scalar c :: rest) = readNumber true (.scalar c :: rest) := by
  have other {d : Char} (letter : d.isDigit = false) : d ≠ c := by
    rintro rfl
    simp [letter] at digit
  have noWord : words.findSome? (fun word =>
      (Text.dropStart? word.1 (.scalar '-' :: .scalar c :: rest)).map (word.2, ·)) = none := by
    simp [words, Text.ofString, Text.dropStart?, other]
  simp only [readPlain, noWord]

theorem ofNat_head (n : Nat) : ∃ c rest, Text.ofNat n = .scalar c :: rest ∧ c.isDigit = true := by
  obtain ⟨c, rest, same⟩ := List.exists_cons_of_ne_nil (Nat.toDigits_ne_nil (n := n) (b := 10))
  refine ⟨c, rest.map .scalar, by rw [Text.ofNat, same]; rfl, ?_⟩
  exact Nat.isDigit_of_mem_toDigits (by decide) (by decide) (same ▸ List.mem_cons_self)

theorem ofInt_head (i : Int) :
    ∃ c rest, Text.ofInt i = .scalar c :: rest ∧ (c = '-' ∨ c.isDigit = true) := by
  cases i with
  | ofNat n =>
    obtain ⟨c, rest, same, digit⟩ := ofNat_head n
    exact ⟨c, rest, same, .inr digit⟩
  | negSucc n => exact ⟨'-', _, rfl, .inl rfl⟩

theorem readPlain_ofInt {i : Int} {t tail : Text} (written : writeInteger i = .ok t)
    (closed : Closed tail) : readPlain (t ++ tail) = .ok (integer i, tail) := by
  obtain ⟨short, rfl⟩ := ofInt_of_written written
  cases i with
  | ofNat n =>
    obtain ⟨c, rest, same, digit⟩ := ofNat_head n
    have read := readNumber_ofNat (n := n) short false closed
    rw [same, List.cons_append] at read
    rw [Text.ofInt, same, List.cons_append, readPlain_digit digit, read]
    rfl
  | negSucc n =>
    obtain ⟨c, rest, same, digit⟩ := ofNat_head (n + 1)
    have read := readNumber_ofNat (n := n + 1) short true closed
    rw [same, List.cons_append] at read
    rw [Text.ofInt, same, List.cons_append, List.cons_append, readPlain_minus digit, read]
    rfl

/-! Finite values. -/

theorem numberOfDigits_append (a b : List Nat) :
    numberOfDigits 10 (a ++ b) = numberOfDigits 10 a * 10 ^ b.length + numberOfDigits 10 b := by
  have onto (total : Nat) : b.foldl (fun total digit => total * 10 + digit) total
      = total * 10 ^ b.length + b.foldl (fun total digit => total * 10 + digit) 0 := by
    induction b generalizing total with
    | nil => simp
    | cons digit b ih =>
      rw [List.foldl_cons, List.foldl_cons, ih (total * 10 + digit), ih (0 * 10 + digit),
        List.length_cons]
      ring
  rw [numberOfDigits, List.foldl_append, onto]
  rfl

theorem numberOfDigits_zeros (n : Nat) :
    numberOfDigits 10 (charValues (List.replicate n '0')) = 0 := by
  induction n with
  | zero => rfl
  | succ n ih => exact ih

def fractionText (chars : List Char) : Text :=
  if chars = [] then [] else .scalar '.' :: chars.map .scalar

inductive Exponent : Option Int → Text → Prop
  | none : Exponent none []
  | up (n : Nat) : Exponent (some n) (.scalar 'e' :: .scalar '+' :: exponentDigits n)
  | down (n : Nat) : Exponent (some (-n)) (.scalar 'e' :: .scalar '-' :: exponentDigits n)

theorem takeDigits_exponentDigits (n : Nat) {tail : Text} (undigited : Undigited tail) :
    ∃ digit rest, Text.takeDigits (exponentDigits n ++ tail) = (digit :: rest, tail) ∧
      numberOfDigits 10 (digit :: rest) = n := by
  have number := numberOfDigits_digitValues n
  have taken := takeDigits_ofNat n undigited
  unfold exponentDigits
  split_ifs
  · refine ⟨0, digitValues n, ?_, ?_⟩
    · rw [List.cons_append, Text.takeDigits, taken]
      rfl
    · simpa [numberOfDigits] using number
  · obtain ⟨digit, rest, same⟩ := List.exists_cons_of_ne_nil
      (show digitValues n ≠ [] by simp [digitValues, charValues])
    rw [same] at number taken
    exact ⟨digit, rest, taken, number⟩

namespace Exponent
variable {x : Option Int} {t tail : Text}

theorem undigited (spelled : Exponent x t) (closed : Closed tail) : Undigited (t ++ tail) := by
  cases spelled with
  | none => exact closed.undigited
  | up n | down n =>
    rintro c rest same
    cases same
    rfl

theorem takeFraction (spelled : Exponent x t) (closed : Closed tail) :
    Json.takeFraction (t ++ tail) = (Option.none, t ++ tail) := by
  cases spelled with
  | none => exact closed.takeFraction
  | up n | down n => rfl

theorem takeExponent (spelled : Exponent x t) (closed : Closed tail) :
    Json.takeExponent (t ++ tail) = (x, tail) := by
  cases spelled with
  | none => exact closed.takeExponent
  | up n | down n =>
    obtain ⟨digit, rest, taken, number⟩ := takeDigits_exponentDigits n closed.undigited
    simp [Json.takeExponent, taken, number]

end Exponent

/-- A numeral with a point or an exponent is read as the decimal of its digits. -/
theorem readNumber_spelled {whole fraction : List Char} {x : Option Int} {exponent tail : Text}
    (wholes : ∀ c ∈ whole, c.isDigit = true) (fractions : ∀ c ∈ fraction, c.isDigit = true)
    (isWhole : IsWhole whole) (spelled : Exponent x exponent)
    (marked : fraction ≠ [] ∨ x.isSome = true) (negative : Bool) (closed : Closed tail) :
    readNumber negative (whole.map .scalar ++ (fractionText fraction ++ (exponent ++ tail)))
      = .ok (real (.ofDecimal negative
          ⟨numberOfDigits 10 (charValues (whole ++ fraction)), x.getD 0 - fraction.length⟩), tail) := by
  have taken : takeFraction (fractionText fraction ++ (exponent ++ tail))
      = (if fraction = [] then none else some (charValues fraction), exponent ++ tail) := by
    have digits := takeDigits_scalars fractions (spelled.undigited closed)
    unfold fractionText
    split_ifs with none
    · exact spelled.takeFraction closed
    · obtain ⟨c, rest, rfl⟩ := List.exists_cons_of_ne_nil none
      rw [List.cons_append, takeFraction, digits]
      rfl
  have undigited : Undigited (fractionText fraction ++ (exponent ++ tail)) := by
    unfold fractionText
    split_ifs with none
    · exact spelled.undigited closed
    · rintro c rest same
      cases same
      rfl
  have first := takeWhole_scalars wholes isWhole undigited
  obtain ⟨digit, digits, values⟩ : ∃ digit digits, charValues whole = digit :: digits := by
    rcases isWhole with rfl | ⟨c, rest, rfl, _⟩ <;> exact ⟨_, _, rfl⟩
  have joined : charValues (whole ++ fraction) = digit :: digits ++ charValues fraction := by
    rw [← values]
    exact List.map_append
  rw [joined]
  rw [values] at first
  simp only [readNumber, first, taken, spelled.takeExponent closed]
  by_cases none : fraction = []
  · subst none
    cases x with
    | none => simp at marked
    | some x => simp [charValues]
  · simp [none, charValues]

structure Numeral (d : Decimal) (t : Text) (whole fraction : List Char) (x : Option Int)
    (exponent : Text) : Prop where
  text : t = whole.map .scalar ++ (fractionText fraction ++ exponent)
  wholes : ∀ c ∈ whole, c.isDigit = true
  fractions : ∀ c ∈ fraction, c.isDigit = true
  isWhole : IsWhole whole
  spelled : Exponent x exponent
  marked : fraction ≠ [] ∨ x.isSome = true
  same (negative : Bool) : Binary64.ofDecimal negative
    ⟨numberOfDigits 10 (charValues (whole ++ fraction)), x.getD 0 - fraction.length⟩
      = Binary64.ofDecimal negative d

section
variable {d : Decimal} {chars : List Char}

private theorem isDigit_zeros (n : Nat) : ∀ c ∈ List.replicate n '0', c.isDigit = true := by
  intro c here
  rw [(List.mem_replicate.mp here).2]
  rfl

private theorem numeral_whole (digits : ∀ c ∈ chars, c.isDigit = true)
    (number : numberOfDigits 10 (charValues chars) = d.digits) (positive : 0 < d.digits)
    (isWhole : IsWhole chars) (nonzero : chars ≠ ['0']) (up : 0 ≤ d.exponent)
    (bounded : d.exponent ≤ 400) :
    Numeral d (chars.map CodePoint.scalar ++ List.replicate d.exponent.toNat (CodePoint.scalar '0')
        ++ Text.ofString ".0")
      (chars ++ List.replicate d.exponent.toNat '0') ['0'] none [] where
  text := by simp [fractionText, Text.ofString]
  wholes := by
    intro c here
    rcases List.mem_append.mp here with here | here
    · exact digits c here
    · exact isDigit_zeros _ c here
  fractions := by simp
  isWhole := by
    rcases isWhole with zero | ⟨c, rest, rfl, first⟩
    · exact absurd zero nonzero
    · exact .inr ⟨c, _, rfl, first⟩
  spelled := .none
  marked := .inl (by simp)
  same negative := by
    obtain ⟨digits, exponent⟩ := d
    obtain ⟨exponent, rfl⟩ := Int.eq_ofNat_of_zero_le up
    have scaled : numberOfDigits 10 (charValues (chars ++ List.replicate exponent '0' ++ ['0']))
        = digits * 10 ^ (exponent + 1) := by
      have zeros : List.replicate exponent '0' ++ ['0'] = List.replicate (exponent + 1) '0' :=
        List.replicate_succ'.symm
      rw [List.append_assoc, zeros, charValues, List.map_append, numberOfDigits_append]
      change numberOfDigits 10 (charValues chars) * _
        + numberOfDigits 10 (charValues (List.replicate (exponent + 1) '0')) = _
      rw [number, numberOfDigits_zeros]
      simp
    rw [Int.toNat_natCast, scaled]
    exact Binary64.ofDecimal_tenths negative positive (by simp only at bounded; omega)

private theorem numeral_pointed (digits : ∀ c ∈ chars, c.isDigit = true)
    (number : numberOfDigits 10 (charValues chars) = d.digits) (isWhole : IsWhole chars)
    (nonzero : chars ≠ ['0']) {n : Nat} (some : 0 < n) (down : d.exponent < 0)
    (place : (n : Int) = d.exponent + chars.length) :
    Numeral d ((chars.map CodePoint.scalar).take n ++ Text.ofString "."
        ++ (chars.map CodePoint.scalar).drop n)
      (chars.take n) (chars.drop n) none [] where
  text := by
    have left : chars.drop n ≠ [] := by
      rw [ne_eq, List.drop_eq_nil_iff]
      omega
    simp [fractionText, left, Text.ofString, List.map_take, List.map_drop]
  wholes c here := digits c (List.mem_of_mem_take here)
  fractions c here := digits c (List.mem_of_mem_drop here)
  isWhole := by
    rcases isWhole with zero | ⟨c, rest, rfl, first⟩
    · exact absurd zero nonzero
    · obtain ⟨n, rfl⟩ := Nat.exists_eq_succ_of_ne_zero some.ne'
      exact .inr ⟨c, _, rfl, first⟩
  spelled := .none
  marked := .inl (by
    rw [ne_eq, List.drop_eq_nil_iff]
    omega)
  same negative := by
    have shift : (none : Option Int).getD 0 - ((chars.drop n).length : Int) = d.exponent := by
      rw [List.length_drop, Option.getD_none]
      omega
    rw [List.take_append_drop, number, shift]

private theorem numeral_small (digits : ∀ c ∈ chars, c.isDigit = true)
    (number : numberOfDigits 10 (charValues chars) = d.digits) (some : 0 < chars.length) {n : Nat}
    (place : -(n : Int) = d.exponent + chars.length) :
    Numeral d (Text.ofString "0." ++ List.replicate n (CodePoint.scalar '0')
        ++ chars.map CodePoint.scalar) ['0']
      (List.replicate n '0' ++ chars) none [] where
  text := by
    have left : chars ≠ [] := List.ne_nil_of_length_pos some
    simp [fractionText, left, Text.ofString]
  wholes := by simp
  fractions := by
    intro c here
    rcases List.mem_append.mp here with here | here
    · exact isDigit_zeros _ c here
    · exact digits c here
  isWhole := .inl rfl
  spelled := .none
  marked := .inl (by simp [List.ne_nil_of_length_pos some])
  same negative := by
    have shift : (none : Option Int).getD 0 - ((List.replicate n '0' ++ chars).length : Int)
        = d.exponent := by
      rw [List.length_append, List.length_replicate, Option.getD_none]
      omega
    have scaled : numberOfDigits 10 (charValues (['0'] ++ (List.replicate n '0' ++ chars)))
        = d.digits := by
      rw [← List.append_assoc, charValues, List.map_append, numberOfDigits_append]
      change numberOfDigits 10 (charValues (List.replicate (n + 1) '0')) * _
        + numberOfDigits 10 (charValues chars) = _
      rw [numberOfDigits_zeros, number, Nat.zero_mul, Nat.zero_add]
    rw [shift, scaled]

private theorem numeral_scaled (digits : ∀ c ∈ chars, c.isDigit = true)
    (number : numberOfDigits 10 (charValues chars) = d.digits) (isWhole : IsWhole chars)
    (nonzero : chars ≠ ['0']) {leading : Int}
    (place : leading = d.exponent + chars.length - 1) {exponent : Text}
    (spelled : Exponent (some leading) exponent) :
    Numeral d ((chars.map CodePoint.scalar).take 1 ++ (if chars.length = 1 then []
        else Text.ofString "." ++ (chars.map CodePoint.scalar).drop 1) ++ exponent)
      (chars.take 1) (chars.drop 1) (some leading) exponent where
  text := by
    rcases isWhole with zero | ⟨c, rest, rfl, _⟩
    · exact absurd zero nonzero
    · cases rest <;> simp [fractionText, Text.ofString]
  wholes c here := digits c (List.mem_of_mem_take here)
  fractions c here := digits c (List.mem_of_mem_drop here)
  isWhole := by
    rcases isWhole with zero | ⟨c, rest, rfl, first⟩
    · exact absurd zero nonzero
    · exact .inr ⟨c, [], rfl, first⟩
  spelled := spelled
  marked := .inr rfl
  same negative := by
    have some : 0 < chars.length := by
      rcases isWhole with rfl | ⟨c, rest, rfl, _⟩ <;> simp
    have shift : (Option.some leading).getD 0 - ((chars.drop 1).length : Int) = d.exponent := by
      rw [List.length_drop, Option.getD_some]
      omega
    rw [List.take_append_drop, number, shift]

private theorem exponent_spelled (leading : Int) :
    Exponent (some leading) (Text.ofString "e" ++
      ((if leading < 0 then Text.ofString "-" else Text.ofString "+")
        ++ exponentDigits leading.natAbs)) := by
  split_ifs with down
  · obtain ⟨n, same⟩ := Int.eq_ofNat_of_zero_le (show 0 ≤ -leading by omega)
    obtain rfl : leading = -(n : Int) := by omega
    rw [Int.natAbs_neg, Int.natAbs_natCast]
    exact .down n
  · obtain ⟨n, rfl⟩ := Int.eq_ofNat_of_zero_le (show 0 ≤ leading by omega)
    rw [Int.natAbs_natCast]
    exact .up n

end

theorem exists_numeral {d : Decimal} (positive : 0 < d.digits) (bounded : d.exponent ≤ 400) :
    ∃ whole fraction x exponent, Numeral d d.text whole fraction x exponent := by
  have digits := isDigit_toDigits d.digits
  have number : numberOfDigits 10 (charValues (Nat.toDigits 10 d.digits)) = d.digits :=
    numberOfDigits_digitValues d.digits
  obtain ⟨first, rest, same, other⟩ := toDigits_head positive
  have isWhole : IsWhole (Nat.toDigits 10 d.digits) := .inr ⟨first, rest, same, other⟩
  have nonzero : Nat.toDigits 10 d.digits ≠ ['0'] := by
    rw [same]
    rintro zero
    cases zero
    exact other rfl
  have some : 0 < (Nat.toDigits 10 d.digits).length := by simp [same]
  unfold Decimal.text
  simp only [Text.ofNat, List.length_map]
  generalize Nat.toDigits 10 d.digits = chars at *
  by_cases positional : -4 ≤ d.exponent + (chars.length : Int) - 1 ∧
      d.exponent + (chars.length : Int) - 1 < 16
  · rw [if_pos positional]
    split_ifs with up within
    · exact ⟨_, _, _, _, numeral_whole digits number positive isWhole nonzero up bounded⟩
    · exact ⟨_, _, _, _, numeral_pointed digits number isWhole nonzero (by omega) (by omega)
        (by omega)⟩
    · exact ⟨_, _, _, _, numeral_small digits number some (by omega)⟩
  · rw [if_neg positional]
    have numeral := numeral_scaled digits number isWhole nonzero rfl
      (exponent_spelled (d.exponent + chars.length - 1))
    simp only [List.append_assoc] at numeral ⊢
    exact ⟨_, _, _, _, numeral⟩

theorem Numeral.readNumber {d : Decimal} {t : Text} {whole fraction : List Char} {x : Option Int}
    {exponent tail : Text} (numeral : Numeral d t whole fraction x exponent) (negative : Bool)
    (closed : Closed tail) :
    Json.readNumber negative (t ++ tail) = .ok (real (.ofDecimal negative d), tail) := by
  obtain ⟨rfl, wholes, fractions, isWhole, spelled, marked, same⟩ := numeral
  rw [List.append_assoc, List.append_assoc,
    readNumber_spelled wholes fractions isWhole spelled marked negative closed, same]

private theorem readNumber_magnitude {significand : Nat} {exponent : Int}
    (canonical : Canonical significand exponent) (negative : Bool) {tail : Text}
    (closed : Closed tail) :
    readNumber negative (Binary64.finiteText false significand exponent ++ tail)
        = .ok (real (.finite negative significand exponent canonical), tail) ∧
      ∃ c rest, Binary64.finiteText false significand exponent = .scalar c :: rest ∧
        c.isDigit = true := by
  unfold Binary64.finiteText
  simp only [Bool.false_eq_true, if_false, List.nil_append]
  split_ifs with none
  · subst none
    obtain rfl : exponent = -1074 := by
      rcases canonical.2.2.2 with full | same
      · omega
      · exact same
    have numeral : Numeral ⟨0, -1⟩ (Text.ofString "0.0") ['0'] ['0'] Option.none [] :=
      ⟨rfl, by simp, by simp, .inl rfl, .none, .inl (by simp), fun _ => rfl⟩
    refine ⟨?_, '0', _, rfl, rfl⟩
    rw [numeral.readNumber negative closed]
    have zero : Binary64.ofDecimal negative ⟨0, -1⟩ = .zero negative := rfl
    rw [zero, Binary64.zero, Binary64.ofParts_of_canonical canonical]
  · have positive := Nat.pos_of_ne_zero none
    have value := Binary64.ofDecimal_shortest canonical positive
    obtain ⟨digits, bounded⟩ := Binary64.shape_of_ofDecimal positive value
    obtain ⟨whole, fraction, x, shape, numeral⟩ := exists_numeral digits bounded
    refine ⟨?_, ?_⟩
    · rw [numeral.readNumber negative closed]
      cases negative with
      | false => rw [value]
      | true => rw [Binary64.ofDecimal_neg, value]; rfl
    · obtain ⟨text, wholes, _, isWhole, _⟩ := numeral
      rw [text]
      rcases isWhole with rfl | ⟨c, rest, rfl, _⟩
      · exact ⟨'0', _, rfl, rfl⟩
      · exact ⟨c, _, rfl, wholes c List.mem_cons_self⟩

/-- What is written for a value is read back as the value. -/
theorem readPlain_writeReal {unbounded : Bool} {x : Binary64} {t tail : Text}
    (written : writeReal unbounded x = .ok t) (closed : Closed tail) :
    readPlain (t ++ tail) = .ok (real x, tail) := by
  cases x with
  | nan =>
    simp only [writeReal] at written
    split at written
    · cases written
      rfl
    · cases written
  | infinite negative =>
    simp only [writeReal] at written
    split at written
    · cases written
      cases negative <;> rfl
    · cases written
  | finite negative significand exponent canonical =>
    cases written
    obtain ⟨read, c, rest, same, digit⟩ := readNumber_magnitude canonical negative closed
    cases negative with
    | false =>
      change readPlain (Binary64.finiteText false significand exponent ++ tail) = _
      rw [same, List.cons_append] at read ⊢
      rw [readPlain_digit digit, read]
    | true =>
      have signed : (Binary64.finite true significand exponent canonical).text
          = .scalar '-' :: Binary64.finiteText false significand exponent := by
        simp only [Binary64.text, Binary64.finiteText, Bool.false_eq_true, if_false, if_true]
        split_ifs <;> rfl
      rw [signed, List.cons_append]
      rw [same, List.cons_append] at read ⊢
      rw [readPlain_minus digit, read]

theorem head_writeReal {unbounded : Bool} {x : Binary64} {t : Text}
    (written : writeReal unbounded x = .ok t) :
    ∃ c rest, t = .scalar c :: rest ∧ (c = '-' ∨ c = 'N' ∨ c = 'I' ∨ c.isDigit = true) := by
  cases x with
  | nan =>
    simp only [writeReal] at written
    split at written
    · cases written
      exact ⟨'N', _, rfl, by simp⟩
    · cases written
  | infinite negative =>
    simp only [writeReal] at written
    split at written
    · cases written
      cases negative
      · exact ⟨'I', _, rfl, by simp⟩
      · exact ⟨'-', _, rfl, by simp⟩
    · cases written
  | finite negative significand exponent canonical =>
    cases written
    obtain ⟨_, c, rest, same, digit⟩ := readNumber_magnitude canonical false (.inl rfl)
    cases negative with
    | false => exact ⟨c, rest, same, .inr (.inr (.inr digit))⟩
    | true =>
      simp only [Binary64.text, Binary64.finiteText, if_true]
      split_ifs <;> exact ⟨'-', _, rfl, .inl rfl⟩

end Intake.Json
