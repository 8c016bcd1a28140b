import Intake.Checkpoint.Store
import Intake.Proofs.Checkpoint.Storage
import Intake.Proofs.Files.Names

/-! The files of the keys of progress. A key is the prefix of all keys and a digest in hexadecimal
digits, so that every directory can hold its file, no other key has that file, and it is never a
temporary one. -/
namespace Intake

namespace Text

theorem mem_hex {width n : Nat} {c : CodePoint} (here : c ∈ hex width n) :
    ∃ d < 16, c = hexDigit d := by
  have digits (n : Nat) (c : Char) (here : c ∈ Nat.toDigits 16 n) : ∃ d < 16, c = d.digitChar := by
    induction n using Nat.strongRecOn with
    | ind n ih =>
      rw [Nat.toDigits_eq_if (by decide)] at here
      split at here
      · rename_i small
        exact ⟨n, small, List.mem_singleton.mp here⟩
      · obtain high | low := List.mem_append.mp here
        · exact ih (n / 16) (by omega) high
        · exact ⟨n % 16, Nat.mod_lt _ (by decide), List.mem_singleton.mp low⟩
  obtain ⟨c, shown, rfl⟩ := List.mem_map.mp here
  obtain zero | digit := List.mem_append.mp shown
  · exact ⟨0, by decide, congrArg CodePoint.scalar (List.eq_of_mem_replicate zero)⟩
  · obtain ⟨d, small, rfl⟩ := digits n c digit
    exact ⟨d, small, rfl⟩

theorem length_hex {width n : Nat} (wide : 0 < width) (small : n < 16 ^ width) :
    (hex width n).length = width := by
  have digits : (Nat.toDigits 16 n).length ≤ width :=
    (Nat.length_toDigits_le_iff (by decide) wide).mpr small
  simp only [hex, List.length_map, List.length_append, List.length_replicate]
  omega

end Text

theorem Sha256.mem_digest {message : Bytes} {c : CodePoint} (here : c ∈ digest message) :
    ∃ d < 16, c = Text.hexDigit d := by
  obtain ⟨word, _, shown⟩ := List.mem_flatMap.mp here
  exact Text.mem_hex shown

theorem Sha256.length_digest (message : Bytes) : (digest message).length = 64 := by
  have word (w : UInt32) : (Text.hex 8 w.toNat).length = 8 :=
    Text.length_hex (by decide) w.toNat_lt
  simp [digest, word]

namespace Medium

def fileName (key : Text) : Text := Text.replace (.scalar ':') (.scalar '_') key ++ ".json"

theorem fileOf_eq (directory : Path) (key : Text) :
    fileOf directory key = directory.under (Path.ofText (fileName key)) := rfl

inductive IsKey : Text → Prop
  | progress (message : Bytes) : IsKey ("csv_upload_progress:" ++ Sha256.digest message)

theorem isKey_progressKey (workspace fileName : Text) : IsKey (progressKey workspace fileName) :=
  .progress _

private theorem fileName_progress (message : Bytes) :
    fileName ("csv_upload_progress:" ++ Sha256.digest message)
      = "csv_upload_progress_" ++ Sha256.digest message ++ ".json" := by
  have kept : Text.replace (.scalar ':') (.scalar '_') (Sha256.digest message)
      = Sha256.digest message := by
    refine (List.map_congr_left fun c here => ?_).trans (List.map_id _)
    obtain ⟨d, small, rfl⟩ := Sha256.mem_digest here
    have other : ∀ d < 16, Text.hexDigit d ≠ .scalar ':' := by decide
    rw [if_neg (other d small), id]
  have start : Text.replace (.scalar ':') (.scalar '_') "csv_upload_progress:"
      = Text.ofString "csv_upload_progress_" := by decide
  rw [fileName]
  simp only [Text.replace, List.map_append] at kept start ⊢
  rw [kept, start]

theorem isName_fileName {key : Text} (progress : IsKey key) : Path.IsName (fileName key) := by
  obtain ⟨message⟩ := progress
  rw [fileName_progress]
  have digits : ∀ d < 16, Text.hexDigit d ≠ Path.separator ∧ (Text.hexDigit d).isPlain = true := by
    decide
  exact
    { plain := by
        have digest : (Sha256.digest message).isPlain = true := by
          refine List.all_eq_true.mpr fun c here => ?_
          obtain ⟨d, small, rfl⟩ := Sha256.mem_digest here
          exact (digits d small).2
        rw [Text.isPlain_append, Text.isPlain_append, digest]
        decide
      whole := by
        have digest : Path.separator ∉ Sha256.digest message := fun here => by
          obtain ⟨d, small, same⟩ := Sha256.mem_digest here
          exact (digits d small).1 same.symm
        have start : Path.separator ∉ Text.ofString "csv_upload_progress_" := by decide
        have ending : Path.separator ∉ Text.ofString ".json" := by decide
        simp only [List.mem_append, not_or]
        exact ⟨⟨start, digest⟩, ending⟩
      short := by
        simp only [List.length_append, Sha256.length_digest]
        decide
      shown := by simp [Text.ofString]
      still := by simp [Text.ofString]
      down := by simp [Text.ofString, FileTree.up] }

/-- No two keys name one file. -/
theorem fileName_injective {key other : Text} (progress : IsKey key) (progress' : IsKey other)
    (same : fileName key = fileName other) : key = other := by
  obtain ⟨message⟩ := progress
  obtain ⟨message'⟩ := progress'
  rw [fileName_progress, fileName_progress] at same
  rw [List.append_cancel_left (List.append_cancel_right same)]

theorem fileName_ne_temporary {key : Text} (progress : IsKey key) (n : Nat) :
    fileName key ≠ temporaryName n := by
  obtain ⟨message⟩ := progress
  rw [fileName_progress]
  simp [temporaryName, Text.ofString]

end Medium
end Intake
