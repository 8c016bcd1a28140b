import Intake.Json.Spelling
import Intake.Proofs.Json.Readers

/-! The spelling of a value that is no text has only characters: inside quotes, half of a surrogate
pair is escaped. So the spelling of a joined value is joined. -/
namespace Intake

theorem CodePoint.isPrintable_surrogate (half : Fin 0x800) : (surrogate half).isPrintable = false := by
  have listed : (0xD7FC, 0xF8FF) ∈ unprintableTable.toList := by decide +kernel
  have low : 0xD7FC ≤ (surrogate half).value := Nat.le_add_right_of_le (by decide)
  have high : (surrogate half).value ≤ 0xF8FF := by
    have below := half.isLt
    rw [value]
    omega
  have inside : unprintableTable.any
      (fun range => range.1 ≤ (surrogate half).value && (surrogate half).value ≤ range.2) = true :=
    Array.any_eq_true'.mpr ⟨_, Array.mem_toList_iff.mp listed, by rw [decide_eq_true low, decide_eq_true high]; rfl⟩
  rw [isPrintable, inside]
  rfl

namespace Text

theorem isScalar_escape (n : Nat) : (escape n).isScalar = true := by
  unfold escape
  split_ifs <;> rw [isScalar_append, ofString, isScalar_map, hex, isScalar_map] <;> rfl

theorem isScalar_quotePoint {quote : CodePoint} (scalar : quote.isScalar = true) (c : CodePoint) :
    (quotePoint quote c).isScalar = true := by
  have other : isScalar (if c.isPrintable then [c] else escape c.value) = true := by
    split_ifs with shown
    · cases c with
      | scalar c => rfl
      | surrogate half => simp [CodePoint.isPrintable_surrogate] at shown
    · exact isScalar_escape _
  rw [quotePoint.eq_def]
  by_cases same : c = quote
  · rw [if_pos same, same, isScalar_cons, isScalar_cons, scalar]
    rfl
  · rw [if_neg same]
    split
    · rfl
    · rfl
    · rfl
    · rfl
    · exact other

theorem isScalar_quoted (t : Text) : t.quoted.isScalar = true := by
  have quoted {quote : CodePoint} (scalar : quote.isScalar = true) :
      isScalar (quote :: t.flatMap (quotePoint quote) ++ [quote]) = true := by
    have points : isScalar (t.flatMap (quotePoint quote)) = true := by
      induction t with
      | nil => rfl
      | cons c rest ih => rw [List.flatMap_cons, isScalar_append, isScalar_quotePoint scalar, ih]; rfl
    rw [isScalar_append, isScalar_cons, isScalar_cons, scalar, points]
    rfl
  unfold Text.quoted
  dsimp only
  split_ifs <;> exact quoted rfl

end Text

namespace Json

mutual

theorem isScalar_spellQuoted : ∀ (j : Json), (spellQuoted j).isScalar = true
  | null => rfl
  | boolean value => by
    cases value <;> rfl
  | integer value => Text.isScalar_of_isPlain (Text.isPlain_ofInt value)
  | real value => Text.isScalar_of_isPlain (Binary64.isPlain_text value)
  | text value => Text.isScalar_quoted value
  | list items => by
    have comma : Text.isScalar (Text.ofString ", ") = true := rfl
    have all := (Text.isScalar_join comma).mpr (isScalar_spellItems items)
    rw [spellQuoted, Text.isScalar_append, Text.isScalar_append, all]
    rfl
  | object entries => by
    have comma : Text.isScalar (Text.ofString ", ") = true := rfl
    have all := (Text.isScalar_join comma).mpr (isScalar_spellEntries entries)
    rw [spellQuoted, Text.isScalar_append, Text.isScalar_append, all]
    rfl

theorem isScalar_spellItems : ∀ (items : List Json), ∀ t ∈ spellItems items, t.isScalar = true
  | [] => by simp [spellItems]
  | item :: items => by
    rw [spellItems, List.forall_mem_cons]
    exact ⟨isScalar_spellQuoted item, isScalar_spellItems items⟩

theorem isScalar_spellEntries : ∀ (entries : List (Text × Json)),
    ∀ t ∈ spellEntries entries, t.isScalar = true
  | [] => by simp [spellEntries]
  | (key, value) :: entries => by
    rw [spellEntries, List.forall_mem_cons, Text.isScalar_append, Text.isScalar_append,
      Text.isScalar_quoted, isScalar_spellQuoted value]
    exact ⟨rfl, isScalar_spellEntries entries⟩

end

end Json
end Intake
