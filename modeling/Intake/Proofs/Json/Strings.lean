import Intake.Proofs.Json.RoundTrip
import Mathlib.Tactic.SplitIfs

/-! The strings that are read from a text of characters. An escape may spell half of a surrogate pair,
but the halves of one never stand side by side: the two escapes that spell them are read as one code
point. -/
namespace Intake

namespace CodePoint

theorem isHigh_scalar (c : Char) : (scalar c).isHigh = false := by
  have valid := c.valid
  simp only [UInt32.isValidChar, Nat.isValidChar] at valid
  rw [isHigh, Bool.and_eq_false_iff, decide_eq_false_iff_not, decide_eq_false_iff_not]
  simp only [value, Char.toNat]
  omega

theorem isLow_scalar (c : Char) : (scalar c).isLow = false := by
  have valid := c.valid
  simp only [UInt32.isValidChar, Nat.isValidChar] at valid
  rw [isLow, Bool.and_eq_false_iff, decide_eq_false_iff_not, decide_eq_false_iff_not]
  simp only [value, Char.toNat]
  omega

/-- A surrogate pair stands for a character. -/
theorem ofPair_eq (high low : Nat) : ∃ c, ofPair high low = scalar c := by
  have beyond : 0x10000 ≤ 0x10000 + (high - 0xD800) * 0x400 + (low - 0xDC00) := by omega
  rw [ofPair]
  generalize 0x10000 + (high - 0xD800) * 0x400 + (low - 0xDC00) = n at beyond
  by_cases valid : n.isValidChar
  · exact ⟨_, by rw [ofNat?, dif_pos valid, Option.getD_some]⟩
  · exact ⟨default, by rw [ofNat?, dif_neg valid, dif_neg (by omega)]; rfl⟩

end CodePoint

namespace Text

theorem isJoined_cons {c : CodePoint} {t : Text} (joined : t.isJoined = true)
    (apart : ∀ d rest, t = d :: rest → c.isHigh = true → ¬ d.isLow = true) :
    isJoined (c :: t) = true := by
  cases t with
  | nil => rfl
  | cons d rest =>
    have halves : (c.isHigh && d.isLow) = false := by
      rw [Bool.and_eq_false_imp]
      exact fun high => Bool.eq_false_iff.mpr (apart d rest rfl high)
    rw [isJoined, joined, halves]
    rfl

theorem isJoined_scalar_cons {c : Char} {t : Text} (joined : t.isJoined = true) :
    isJoined (.scalar c :: t) = true :=
  isJoined_cons joined fun _ _ _ high _ => Bool.false_ne_true (CodePoint.isHigh_scalar c ▸ high)

/-- Where no half of a surrogate pair stands, no two of them stand together. -/
theorem isJoined_of_isScalar {t : Text} (scalar : t.isScalar = true) : t.isJoined = true := by
  induction t with
  | nil => rfl
  | cons c rest ih =>
    rw [isScalar_cons, Bool.and_eq_true] at scalar
    cases c with
    | surrogate half => cases scalar.1
    | scalar c => exact isJoined_scalar_cons (ih scalar.2)

theorem isScalar_of_suffix {s t : Text} (part : s <:+ t) (scalar : t.isScalar = true) :
    s.isScalar = true :=
  List.all_eq_true.mpr fun c here => List.all_eq_true.mp scalar c (part.subset here)

end Text

namespace Json

private theorem map_eq_ok {ε α β : Type} {f : α → β} {result : Except ε α} {value : β}
    (mapped : result.map f = .ok value) : ∃ first, result = .ok first ∧ f first = value := by
  cases result with
  | error error => cases mapped
  | ok first => exact ⟨first, rfl, Except.ok.inj mapped⟩

private def BeginsLow (t : Text) : Prop :=
  ∃ a b c d next more n, t = .scalar '\\' :: .scalar 'u' :: a :: b :: c :: d :: next :: more ∧
    unit? a b c d = some n ∧ (point n).isLow = true

private def Halved (t s : Text) : Prop :=
  s.isJoined = true ∧ ∀ first more, s = first :: more → first.isLow = true → BeginsLow t

private theorem Halved.character {t s : Text} (joined : s.isJoined = true) (c : Char) :
    Halved t (.scalar c :: s) := by
  refine ⟨Text.isJoined_scalar_cons joined, ?_⟩
  rintro _ _ ⟨⟩ low
  exact absurd (CodePoint.isLow_scalar c ▸ low) Bool.false_ne_true

private theorem halved_of_readString {t s rest : Text} (scalar : t.isScalar = true)
    (read : readString t = .ok (s, rest)) : Halved t s := by
  fun_induction readString t generalizing s with
  | case1 | case3 | case4 | case9 | case11 | case12 | case13 | case14 => cases read
  | case2 rest =>
    cases read
    exact ⟨rfl, nofun⟩
  | case5 a b c d high _ _ e f g h after more low _ _ _ later =>
    obtain ⟨r, done, same⟩ := map_eq_ok read
    cases same
    obtain ⟨c, same⟩ := CodePoint.ofPair_eq high low
    rw [same]
    exact .character (later (by simp_all) done).1 c
  | case6 a b c d n spelled high e f g h after more low paired other single =>
    rename_i later
    obtain ⟨r, done, same⟩ := map_eq_ok read
    cases same
    have halved := later (by simp_all) done
    refine ⟨Text.isJoined_cons halved.1 fun first rest same _ low' => ?_, ?_⟩
    · obtain ⟨_, _, _, _, _, _, _, text, paired', low''⟩ := halved.2 first rest same low'
      cases text
      cases paired.symm.trans paired'
      exact other low''
    · rintro _ _ ⟨⟩ low'
      exact ⟨a, b, c, d, _, _, n, rfl, spelled, low'⟩
  | case7 a b c d next more n spelled single high unpaired =>
    rename_i later
    obtain ⟨r, done, same⟩ := map_eq_ok read
    cases same
    have halved := later (by simp_all) done
    refine ⟨Text.isJoined_cons halved.1 fun first rest same _ low' => ?_, ?_⟩
    · obtain ⟨_, _, _, _, _, _, _, text, _, _⟩ := halved.2 first rest same low'
      cases text
      exact unpaired _ _ _ _ _ _ rfl rfl
    · rintro _ _ ⟨⟩ low'
      exact ⟨a, b, c, d, _, _, n, rfl, spelled, low'⟩
  | case8 a b c d next more n spelled single other =>
    rename_i later
    obtain ⟨r, done, same⟩ := map_eq_ok read
    cases same
    refine ⟨Text.isJoined_cons (later (by simp_all) done).1 fun _ _ _ high => absurd high other, ?_⟩
    rintro _ _ ⟨⟩ low'
    exact ⟨a, b, c, d, _, _, n, rfl, spelled, low'⟩
  | case10 _ rest _ _ c _ later =>
    obtain ⟨r, done, same⟩ := map_eq_ok read
    cases same
    exact .character (later (by simp_all) done).1 c
  | case15 c rest _ _ _ _ _ _ _ later =>
    obtain ⟨r, done, same⟩ := map_eq_ok read
    cases same
    rw [Text.isScalar_cons, Bool.and_eq_true] at scalar
    cases c with
    | surrogate half => cases scalar.1
    | scalar c => exact .character (later scalar.2 done).1 c

/-- A string that is read from a text of characters is joined. -/
theorem isJoined_readString {t s rest : Text} (scalar : t.isScalar = true)
    (read : readString t = .ok (s, rest)) : s.isJoined = true :=
  (halved_of_readString scalar read).1

end Json
end Intake
