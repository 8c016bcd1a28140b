import Intake.Proofs.Checkpoint.History
import Intake.Proofs.Checkpoint.Naming
import Intake.Proofs.Json.Strings

/-! Keys of pairs of a workspace and a file name. Both names are read back from the text that is
hashed, so that different pairs have different texts; their keys, and the files of these keys, differ
as far as the digests do. -/
namespace Intake

namespace Medium

theorem name_fileOf {key : Text} (progress : IsKey key) (directory : Path) :
    (fileOf directory key).name = fileName key := by
  rw [fileOf_eq, Path.ofText_name (isName_fileName progress)]
  simp [Path.under, Path.isAbsolute, Path.name]

end Medium

/-- What is hashed for a pair is the UTF-8 form of the JSON list of its names, from which both are
read back, whatever quotes, commas, brackets, backslashes or controls stand in them. So no two pairs
of texts without surrogates have one preimage; and if the digests of two pairs do not collide, the
keys of the pairs are the same only if the pairs are, and so are the names of their files. -/
theorem progressKey_separates {p q : Text × Text}
    (left : p.1.isScalar = true ∧ p.2.isScalar = true)
    (right : q.1.isScalar = true ∧ q.2.isScalar = true) :
    (∀ pair ∈ [p, q],
        (Json.list [.text pair.1, .text pair.2]).write Json.stored = .ok (pairText pair.1 pair.2) ∧
        Json.read (pairText pair.1 pair.2) = .ok (.list [.text pair.1, .text pair.2]) ∧
        Text.encodeUtf8 (pairText pair.1 pair.2) = some (pairBytes pair) ∧
        progressKey pair.1 pair.2 = "csv_upload_progress:" ++ Sha256.digest (pairBytes pair)) ∧
      (pairText p.1 p.2 = pairText q.1 q.2 ↔ p = q) ∧ (pairBytes p = pairBytes q ↔ p = q) ∧
      (Uncollided [p, q] →
        (progressKey p.1 p.2 = progressKey q.1 q.2 ↔ p = q) ∧
          ∀ directory, (Medium.fileOf directory (progressKey p.1 p.2)).name
            = (Medium.fileOf directory (progressKey q.1 q.2)).name ↔ p = q) := by
  have joined : ∀ pair ∈ [p, q], pair.1.isJoined = true ∧ pair.2.isJoined = true := by
    simpa using ⟨⟨Text.isJoined_of_isScalar left.1, Text.isJoined_of_isScalar left.2⟩,
      Text.isJoined_of_isScalar right.1, Text.isJoined_of_isScalar right.2⟩
  have first := joined p List.mem_cons_self
  have second := joined q (List.mem_cons_of_mem p List.mem_cons_self)
  refine ⟨fun pair here => ⟨write_pair pair, read_pair (joined pair here), (encode_pair pair).1, rfl⟩,
    ⟨pairText_injective first second, ?_⟩, ⟨pairBytes_injective first second, ?_⟩, ?_⟩
  · rintro rfl
    rfl
  · rintro rfl
    rfl
  · intro uncollided
    have apart : progressKey p.1 p.2 = progressKey q.1 q.2 → p = q :=
      pair_of_progressKey uncollided joined List.mem_cons_self
        (List.mem_cons_of_mem p List.mem_cons_self)
    refine ⟨⟨apart, ?_⟩, fun directory => ⟨fun same => apart ?_, ?_⟩⟩
    · rintro rfl
      rfl
    · have progress := Medium.isKey_progressKey p.1 p.2
      have progress' := Medium.isKey_progressKey q.1 q.2
      rw [Medium.name_fileOf progress, Medium.name_fileOf progress'] at same
      exact Medium.fileName_injective progress progress' same
    · rintro rfl
      rfl

/-- A comma and quotes on either side of where the names meet, a backslash before one of them, a
control and a code point beyond the first plane. -/
theorem progressKey_separates_quoted :
    let p : Text × Text := (Text.ofString "w\\\", \"\n", Text.ofString "a😀.csv")
    let q : Text × Text := (Text.ofString "w\\", Text.ofString ", \"\n\", \"a😀.csv")
    pairText p.1 p.2 ≠ pairText q.1 q.2 ∧ progressKey p.1 p.2 ≠ progressKey q.1 q.2 ∧
      (Medium.fileOf (Path.ofText "progress") (progressKey p.1 p.2)).name
        ≠ (Medium.fileOf (Path.ofText "progress") (progressKey q.1 q.2)).name := by
  intro p q
  have different : p ≠ q := by decide +kernel
  obtain ⟨_, texts, _, keys⟩ :=
    @progressKey_separates p q (by decide +kernel) (by decide +kernel)
  obtain ⟨apart, files⟩ := keys (by decide +kernel)
  exact ⟨texts.not.mpr different, apart.not.mpr different, (files _).not.mpr different⟩

end Intake
