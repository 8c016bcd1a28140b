import Intake.Json.Writer
import Intake.Proofs.Encoding
import Mathlib.Algebra.Group.Nat.Defs
import Mathlib.Tactic.SplitIfs

/-! Stored JSON is plain: it is written in the printable characters of ASCII, so that no encoding
and no reading of line ends changes it. -/
namespace Intake

def CodePoint.isPlain (c : CodePoint) : Bool := 0x20 ≤ c.value && c.value < 0x7F

theorem CodePoint.value_lt (c : CodePoint) : c.value < 0x110000 := by
  cases c with
  | scalar c =>
    have valid := c.valid
    simp only [value, Char.toNat, UInt32.isValidChar, Nat.isValidChar] at *
    omega
  | surrogate half =>
    simp only [value]
    omega

namespace Text

def isPlain (t : Text) : Bool := t.all CodePoint.isPlain

@[simp] theorem isPlain_nil : isPlain [] = true := rfl

@[simp] theorem isPlain_cons (c : CodePoint) (t : Text) :
    isPlain (c :: t) = (c.isPlain && isPlain t) := rfl

@[simp] theorem isPlain_append (s t : Text) : isPlain (s ++ t) = (isPlain s && isPlain t) := by
  simp [isPlain]

theorem isScalar_of_isPlain {t : Text} (plain : t.isPlain = true) : t.isScalar = true := by
  simp only [isPlain, isScalar, List.all_eq_true, CodePoint.isPlain, Bool.and_eq_true,
    decide_eq_true_eq] at *
  intro c here
  cases c with
  | scalar c => rfl
  | surrogate half =>
    have below : 0xD800 + half.val < 0x7F := (plain _ here).2
    omega

theorem isPlain_ofNat (n : Nat) : (ofNat n).isPlain = true := by
  simp only [ofNat, isPlain, List.all_map, List.all_eq_true, Function.comp_apply]
  intro c digit
  have shown := Nat.isDigit_of_mem_toDigits (by decide) (by decide) digit
  simp only [Char.isDigit, Bool.and_eq_true, decide_eq_true_eq, ge_iff_le, UInt32.le_iff_toNat_le]
    at shown
  have low : 48 ≤ c.toNat := shown.1
  have high : c.toNat ≤ 57 := shown.2
  have above : 0x20 ≤ c.toNat := by omega
  have below : c.toNat < 0x7F := by omega
  simp [CodePoint.isPlain, CodePoint.value, above, below]

theorem isPlain_ofInt (i : Int) : (ofInt i).isPlain = true := by
  cases i with
  | ofNat n => exact isPlain_ofNat n
  | negSucc n => simp [ofInt, isPlain_ofNat, CodePoint.isPlain, CodePoint.value]

theorem isPlain_join {separator : Text} {texts : List Text} (plain : separator.isPlain = true)
    (all : ∀ t ∈ texts, t.isPlain = true) : (join separator texts).isPlain = true := by
  induction texts with
  | nil => rfl
  | cons t rest ih =>
    cases rest with
    | nil => simpa [join] using all
    | cons next rest => simp_all [join]

theorem isPlain_of_subset {s t : Text} (plain : t.isPlain = true) (part : s ⊆ t) :
    s.isPlain = true := by
  simp only [isPlain, List.all_eq_true] at *
  exact fun c here => plain c (part here)

theorem isPlain_zeros (n : Nat) : isPlain (List.replicate n (.scalar '0')) = true := by
  simp only [isPlain, List.all_eq_true, List.mem_replicate]
  rintro c ⟨_, rfl⟩
  rfl

def hexDigit (n : Nat) : CodePoint := .scalar n.digitChar

theorem isPlain_hexDigit : ∀ n < 16, (hexDigit n).isPlain = true := by decide

theorem hex_four {n : Nat} (small : n < 0x10000) :
    hex 4 n = [hexDigit (n / 4096), hexDigit (n / 256 % 16), hexDigit (n / 16 % 16),
      hexDigit (n % 16)] := by
  have digits (m : Nat) : Nat.toDigits 16 m
      = if m < 16 then [m.digitChar] else Nat.toDigits 16 (m / 16) ++ [(m % 16).digitChar] :=
    Nat.toDigits_eq_if (by decide)
  have zero (m : Nat) (below : m < 16 ^ 0) : hexDigit m = .scalar '0' := by
    obtain rfl : m = 0 := by omega
    rfl
  by_cases one : n < 16
  · rw [zero (n / 4096) (by omega), zero (n / 256 % 16) (by omega), zero (n / 16 % 16) (by omega)]
    simp [hex, digits n, one, hexDigit, Nat.mod_eq_of_lt one, List.replicate]
  by_cases two : n / 16 < 16
  · rw [zero (n / 4096) (by omega), zero (n / 256 % 16) (by omega)]
    simp [hex, digits n, digits (n / 16), one, two, hexDigit, Nat.mod_eq_of_lt two, List.replicate]
  by_cases three : n / 256 < 16
  · rw [zero (n / 4096) (by omega)]
    simp [hex, digits n, digits (n / 16), digits (n / 256), one, two, Nat.div_div_eq_div_mul,
      three, hexDigit, Nat.mod_eq_of_lt three]
  · have four : n / 4096 < 16 := by omega
    simp [hex, digits n, digits (n / 16), digits (n / 256), digits (n / 4096), one, two,
      Nat.div_div_eq_div_mul, three, four, hexDigit]

end Text

theorem Decimal.isPlain_text (d : Decimal) : d.text.isPlain = true := by
  have digits := Text.isPlain_ofNat d.digits
  have taken (n : Nat) := Text.isPlain_of_subset digits (List.take_subset n _)
  have dropped (n : Nat) := Text.isPlain_of_subset digits (List.drop_subset n _)
  have tail := Text.isPlain_of_subset digits fun _ => List.mem_of_mem_tail
  have exponent (n : Nat) : (exponentDigits n).isPlain = true := by
    unfold exponentDigits
    split_ifs
    · rw [Text.isPlain_cons, Text.isPlain_ofNat]
      rfl
    · exact Text.isPlain_ofNat n
  have point : (Text.ofString ".").isPlain = true := rfl
  have zero : (Text.ofString "0.").isPlain = true := rfl
  have whole : (Text.ofString ".0").isPlain = true := rfl
  have e : (Text.ofString "e").isPlain = true := rfl
  have plus : (Text.ofString "+").isPlain = true := rfl
  have minus : (Text.ofString "-").isPlain = true := rfl
  unfold text
  simp only
  split_ifs <;> simp [digits, taken, dropped, tail, exponent, point, zero, whole, e, plus, minus,
    Text.isPlain_zeros]

theorem Binary64.isPlain_text (x : Binary64) : x.text.isPlain = true := by
  have minus : (Text.ofString "-").isPlain = true := rfl
  have zero : (Text.ofString "0.0").isPlain = true := rfl
  cases x with
  | nan => rfl
  | infinite negative => cases negative <;> rfl
  | finite negative significand exponent _ =>
    unfold text finiteText
    simp only
    split_ifs <;> simp [minus, zero, Decimal.isPlain_text]

namespace Json

theorem isPlain_unitEscape {n : Nat} (small : n < 0x10000) : (unitEscape n).isPlain = true := by
  rw [unitEscape, Text.hex_four small]
  have digit (m : Nat) : (Text.hexDigit (m % 16)).isPlain = true :=
    Text.isPlain_hexDigit _ (Nat.mod_lt _ (by decide))
  simp only [Text.isPlain_append, Text.isPlain_cons, digit,
    Text.isPlain_hexDigit (n / 4096) (by omega)]
  rfl

theorem isPlain_writePoint (c : CodePoint) : (writePoint true c).isPlain = true := by
  have bound := c.value_lt
  unfold writePoint
  split <;> try rfl
  simp only
  split_ifs with control printable basic
  · exact isPlain_unitEscape (by omega)
  · simp_all [CodePoint.isPlain]
  · exact isPlain_unitEscape basic
  · rw [Text.isPlain_append, isPlain_unitEscape (by omega), isPlain_unitEscape (by omega)]
    rfl

theorem isPlain_writeString (t : Text) : (writeString true t).isPlain = true := by
  have each : Text.isPlain (t.flatMap (writePoint true)) = true := by
    induction t with
    | nil => rfl
    | cons c t ih => simp [isPlain_writePoint, ih]
  rw [writeString, List.cons_append, Text.isPlain_cons, Text.isPlain_append, each]
  rfl

theorem ofInt_of_written {i : Int} {t : Text} (written : writeInteger i = .ok t) :
    i.natAbs < 10 ^ digitLimit ∧ t = Text.ofInt i := by
  by_cases long : 10 ^ digitLimit ≤ i.natAbs
  · simp only [writeInteger, Nat.pow_eq, if_pos long, reduceCtorEq] at written
  · simp only [writeInteger, Nat.pow_eq, if_neg long, Except.ok.injEq] at written
    exact ⟨Nat.lt_of_not_le long, written.symm⟩

theorem isPlain_writeInteger {i : Int} {t : Text} (written : writeInteger i = .ok t) :
    t.isPlain = true := by
  obtain ⟨_, rfl⟩ := ofInt_of_written written
  exact Text.isPlain_ofInt i

theorem isPlain_writeReal {x : Binary64} {t : Text} (written : writeReal true x = .ok t) :
    t.isPlain = true := by
  cases x with
  | nan =>
    cases written
    rfl
  | infinite negative =>
    cases written
    cases negative <;> rfl
  | finite negative significand exponent canonical =>
    cases written
    exact Binary64.isPlain_text _

/-! What a written value consists of. -/

theorem write_list {layout : Layout} {items : List Json} {t : Text}
    (written : write layout (list items) = .ok t) :
    ∃ texts, writeItems layout items = .ok texts ∧
      t = [.scalar '['] ++ Text.join layout.comma texts ++ [.scalar ']'] := by
  simp only [write, bind, Except.bind] at written
  split at written
  · cases written
  · rename_i texts parts
    exact ⟨texts, parts, (Except.ok.inj written).symm⟩

theorem write_object {layout : Layout} {entries : List (Text × Json)} {t : Text}
    (written : write layout (object entries) = .ok t) :
    ∃ texts, writeEntries layout entries = .ok texts ∧
      t = [.scalar '\x7b'] ++ Text.join layout.comma texts ++ [.scalar '\x7d'] := by
  simp only [write, bind, Except.bind] at written
  split at written
  · cases written
  · rename_i texts parts
    exact ⟨texts, parts, (Except.ok.inj written).symm⟩

theorem writeItems_cons {layout : Layout} {item : Json} {items : List Json} {texts : List Text}
    (written : writeItems layout (item :: items) = .ok texts) :
    ∃ t rest, write layout item = .ok t ∧ writeItems layout items = .ok rest ∧
      texts = t :: rest := by
  simp only [writeItems, bind, Except.bind] at written
  split at written
  · cases written
  · rename_i t first
    split at written
    · cases written
    · rename_i rest others
      exact ⟨t, rest, first, others, (Except.ok.inj written).symm⟩

theorem writeEntries_cons {layout : Layout} {key : Text} {value : Json}
    {entries : List (Text × Json)} {texts : List Text}
    (written : writeEntries layout ((key, value) :: entries) = .ok texts) :
    ∃ t rest, write layout value = .ok t ∧ writeEntries layout entries = .ok rest ∧
      texts = (writeString layout.ascii key ++ layout.colon ++ t) :: rest := by
  simp only [writeEntries, bind, Except.bind] at written
  split at written
  · cases written
  · rename_i t first
    split at written
    · cases written
    · rename_i rest others
      exact ⟨t, rest, first, others, (Except.ok.inj written).symm⟩

private theorem isPlain_joined {texts : List Text} (all : ∀ t ∈ texts, t.isPlain = true) :
    (Text.join stored.comma texts).isPlain = true :=
  Text.isPlain_join rfl all

mutual

/-- Whatever is stored is plain. -/
theorem isPlain_write : ∀ (j : Json) {t : Text}, write stored j = .ok t → t.isPlain = true
  | null => by
    intro written
    cases written
    rfl
  | boolean value => by
    intro written
    cases written
    cases value <;> rfl
  | integer i => by
    intro written
    rw [write] at written
    exact isPlain_writeInteger written
  | real x => by
    intro written
    rw [write] at written
    exact isPlain_writeReal written
  | text value => by
    intro written
    cases written
    exact isPlain_writeString value
  | list items => by
    intro written
    obtain ⟨texts, parts, rfl⟩ := write_list written
    simp [isPlain_joined (isPlain_writeItems items parts),
      CodePoint.isPlain, CodePoint.value]
  | object entries => by
    intro written
    obtain ⟨texts, parts, rfl⟩ := write_object written
    simp [isPlain_joined (isPlain_writeEntries entries parts),
      CodePoint.isPlain, CodePoint.value]

theorem isPlain_writeItems : ∀ (items : List Json) {texts : List Text},
    writeItems stored items = .ok texts → ∀ t ∈ texts, t.isPlain = true
  | [] => by
    intro written
    cases written
    simp
  | item :: items => by
    intro written
    obtain ⟨t, rest, first, others, rfl⟩ := writeItems_cons written
    simpa [isPlain_write item first] using isPlain_writeItems items others

theorem isPlain_writeEntries : ∀ (entries : List (Text × Json)) {texts : List Text},
    writeEntries stored entries = .ok texts → ∀ t ∈ texts, t.isPlain = true
  | [] => by
    intro written
    cases written
    simp
  | (key, value) :: entries => by
    intro written
    obtain ⟨t, rest, first, others, rfl⟩ := writeEntries_cons written
    have colon : stored.colon.isPlain = true := rfl
    have name : (writeString stored.ascii key).isPlain = true := isPlain_writeString key
    simpa [isPlain_write value first, colon, name] using isPlain_writeEntries entries others

end

end Json
end Intake
