import Intake.Text.Encoding
import Mathlib.Data.UInt
import Mathlib.Tactic.SplitIfs

/-! UTF-8. A text is encoded exactly if no surrogate stands in it, and its bytes are decoded as the
text. -/
namespace Intake

namespace CodePoint

def isScalar (c : CodePoint) : Bool := c.char?.isSome

end CodePoint

namespace Text

def isScalar (t : Text) : Bool := t.all CodePoint.isScalar

@[simp] theorem isScalar_nil : isScalar [] = true := rfl

@[simp] theorem isScalar_cons (c : CodePoint) (t : Text) :
    isScalar (c :: t) = (c.isScalar && isScalar t) := rfl

@[simp] theorem isScalar_append (s t : Text) : isScalar (s ++ t) = (isScalar s && isScalar t) := by
  simp [isScalar]

theorem isScalar_join {separator : Text} {texts : List Text} (scalar : separator.isScalar = true) :
    (join separator texts).isScalar = true ↔ ∀ t ∈ texts, t.isScalar = true := by
  induction texts with
  | nil => simp [join]
  | cons t rest ih =>
    cases rest with
    | nil => simp [join]
    | cons next rest => simp [join, scalar, ih]

/-- The characters of a string, and so each literal. -/
@[simp] theorem isScalar_map (cs : List Char) : isScalar (cs.map .scalar) = true := by
  simp [isScalar, CodePoint.isScalar, CodePoint.char?]

private theorem toNat_byte {n : Nat} (small : n < 256) : (UInt8.ofNat n).toNat = n :=
  UInt8.toNat_ofNat_of_lt' small

private theorem continuation?_byte {n : Nat} (small : n < 64) :
    continuation? (UInt8.ofNat (0x80 + n)) = some n := by
  have byte : (UInt8.ofNat (0x80 + n)).toNat = 0x80 + n := toNat_byte (by omega)
  unfold continuation?
  rw [byte, if_pos (by omega)]
  simp

private theorem point?_scalar {least : Nat} {c : Char} (enough : least ≤ c.toNat) :
    point? false least c.toNat = some (.scalar c) := by
  have found : CodePoint.ofNat? c.toNat = some (.scalar c) := CodePoint.ofNat?_value (.scalar c)
  rw [point?, if_neg (Nat.not_lt.mpr enough), found]

/-! One code point, whatever bytes follow its own. -/

section
variable {c : Char} (rest : Bytes)

private theorem decode_one (small : c.toNat < 0x80) :
    decodeUtf8 false (UInt8.ofNat c.toNat :: rest)
      = (decodeUtf8 false rest).map (.scalar c :: ·) := by
  have first := toNat_byte (show c.toNat < 256 by omega)
  have point := point?_scalar (Nat.zero_le c.toNat)
  rw [decodeUtf8.eq_def]
  simp only [first, if_pos small, point]
  cases decodeUtf8 false rest <;> rfl

private theorem decode_two {m n : Nat} (lead : m < 32) (tail : n < 64) (least : 0x80 ≤ c.toNat)
    (whole : m * 64 + n = c.toNat) :
    decodeUtf8 false (UInt8.ofNat (0xC0 + m) :: UInt8.ofNat (0x80 + n) :: rest)
      = (decodeUtf8 false rest).map (.scalar c :: ·) := by
  have first := toNat_byte (show 0xC0 + m < 256 by omega)
  have point := point?_scalar least
  rw [decodeUtf8]
  simp only [first, continuation?_byte tail, Nat.add_sub_cancel_left]
  rw [if_neg (by omega), if_pos (by omega)]
  simp only [Option.bind_eq_bind, Option.bind_some, whole, point]
  rw [guard, if_pos (by omega)]
  cases decodeUtf8 false rest <;> rfl

private theorem decode_three {l m n : Nat} (lead : l < 16) (middle : m < 64) (tail : n < 64)
    (least : 0x800 ≤ c.toNat) (whole : l * 4096 + m * 64 + n = c.toNat) :
    decodeUtf8 false
        (UInt8.ofNat (0xE0 + l) :: UInt8.ofNat (0x80 + m) :: UInt8.ofNat (0x80 + n) :: rest)
      = (decodeUtf8 false rest).map (.scalar c :: ·) := by
  have first := toNat_byte (show 0xE0 + l < 256 by omega)
  have point := point?_scalar least
  rw [decodeUtf8]
  simp only [first, continuation?_byte middle, continuation?_byte tail, Nat.add_sub_cancel_left]
  rw [if_neg (by omega), if_neg (by omega), if_pos (by omega)]
  simp only [Option.bind_eq_bind, Option.bind_some, whole, point]
  cases decodeUtf8 false rest <;> rfl

private theorem decode_four {k l m n : Nat} (lead : k < 8) (second : l < 64) (third : m < 64)
    (tail : n < 64) (least : 0x10000 ≤ c.toNat)
    (whole : k * 262144 + l * 4096 + m * 64 + n = c.toNat) :
    decodeUtf8 false (UInt8.ofNat (0xF0 + k) :: UInt8.ofNat (0x80 + l) :: UInt8.ofNat (0x80 + m)
        :: UInt8.ofNat (0x80 + n) :: rest)
      = (decodeUtf8 false rest).map (.scalar c :: ·) := by
  have first := toNat_byte (show 0xF0 + k < 256 by omega)
  have point := point?_scalar least
  rw [decodeUtf8]
  simp only [first, continuation?_byte second, continuation?_byte third, continuation?_byte tail,
    Nat.add_sub_cancel_left]
  rw [if_neg (by omega), if_neg (by omega), if_neg (by omega), guard, if_pos (by omega),
    Option.pure_def]
  -- One bind at a time: in a single definitional step the kernel would count up to 262144.
  iterate 4 rw [Option.bind_eq_bind, Option.bind_some]
  rw [whole, point]
  cases decodeUtf8 false rest <;> rfl

private theorem encodePoint_scalar (c : Char) : encodePoint (.scalar c) =
    if c.toNat < 0x80 then some [UInt8.ofNat c.toNat]
    else if c.toNat < 0x800 then
      some [UInt8.ofNat (0xC0 + c.toNat / 64), UInt8.ofNat (0x80 + c.toNat % 64)]
    else if c.toNat < 0x10000 then
      some [UInt8.ofNat (0xE0 + c.toNat / 4096), UInt8.ofNat (0x80 + c.toNat / 2 ^ 6 % 64),
        UInt8.ofNat (0x80 + c.toNat % 64)]
    else
      some [UInt8.ofNat (0xF0 + c.toNat / 262144), UInt8.ofNat (0x80 + c.toNat / 2 ^ 12 % 64),
        UInt8.ofNat (0x80 + c.toNat / 2 ^ 6 % 64), UInt8.ofNat (0x80 + c.toNat % 64)] := by
  unfold encodePoint
  dsimp only
  simp only [Nat.shiftRight_eq_div_pow, Nat.pow_zero, Nat.div_one]

private theorem decode_point (c : Char) (rest : Bytes) :
    ∃ bytes, encodePoint (.scalar c) = some bytes ∧
      decodeUtf8 false (bytes ++ rest) = (decodeUtf8 false rest).map (.scalar c :: ·) := by
  have bound : c.toNat < 0x110000 := by
    have valid := c.valid
    simp only [Char.toNat, UInt32.isValidChar, Nat.isValidChar] at *
    omega
  have below (n : Nat) := Nat.mod_lt n (show 0 < 64 by decide)
  rw [encodePoint_scalar]
  split_ifs with one two three
  · exact ⟨_, rfl, decode_one rest one⟩
  · exact ⟨_, rfl, decode_two rest (by omega) (below _) (by omega) (by omega)⟩
  · exact ⟨_, rfl, decode_three rest (by omega) (below _) (below _) (by omega) (by omega)⟩
  · exact ⟨_, rfl,
      decode_four rest (by omega) (below _) (below _) (below _) (by omega) (by omega)⟩

end

/-- A text without surrogates is encoded, and its bytes are read back as the text. -/
theorem decodeUtf8_encodeUtf8 {t : Text} (scalar : t.isScalar = true) :
    ∃ bytes, encodeUtf8 t = some bytes ∧ decodeUtf8 false bytes = some t := by
  induction t with
  | nil => exact ⟨[], rfl, rfl⟩
  | cons c t ih =>
    rw [isScalar_cons, Bool.and_eq_true] at scalar
    obtain ⟨bytes, encoded, decoded⟩ := ih scalar.2
    cases c with
    | surrogate half => cases scalar.1
    | scalar c =>
      obtain ⟨first, spelled, read⟩ := decode_point c bytes
      refine ⟨first ++ bytes, ?_, ?_⟩
      · rw [encodeUtf8, spelled, encoded]
        rfl
      · rw [read, decoded]
        rfl

theorem isScalar_of_encodeUtf8 {t : Text} {bytes : Bytes} (encoded : encodeUtf8 t = some bytes) :
    t.isScalar = true := by
  induction t generalizing bytes with
  | nil => rfl
  | cons c t ih =>
    cases c with
    | surrogate half => cases encoded
    | scalar c =>
      cases rest : encodeUtf8 t with
      | none => simp [encodeUtf8, rest] at encoded
      | some more => simp [ih rest, CodePoint.isScalar, CodePoint.char?]

end Text
end Intake
