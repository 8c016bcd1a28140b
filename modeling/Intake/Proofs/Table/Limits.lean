import Intake.Proofs.Table.LineEnds

/-! No field that a file reader finds is longer than a field may be. -/
namespace Intake.Table

variable {separator : CodePoint} {m n : Machine} {text : Text}

structure Machine.Fits (m : Machine) : Prop where
  size : m.field.length = m.size
  room : m.size ≤ fieldLimit
  fields : ∀ field ∈ m.fields, field.length ≤ fieldLimit

namespace Machine.Fits

theorem start : Fits Machine.start := ⟨rfl, Nat.zero_le _, nofun⟩

theorem save (fits : m.Fits) (state : State) : (m.save state).Fits := by
  refine ⟨rfl, Nat.zero_le _, List.forall_mem_cons.mpr ⟨?_, fits.fields⟩⟩
  rw [List.length_reverse, fits.size]
  exact fits.room

theorem add (fits : m.Fits) {c : CodePoint} {state : State} (added : m.add c state = some n) :
    n.Fits := by
  unfold Machine.add at added
  split_ifs at added with full
  cases added
  exact ⟨congrArg (· + 1) fits.size, Nat.not_le.mp full, fits.fields⟩

theorem turn (fits : m.Fits) (state : State) : Fits { m with state } := ⟨fits.1, fits.2, fits.3⟩

theorem stepField (fits : m.Fits) {c : CodePoint} (stepped : m.stepField separator c = some n) :
    n.Fits := by
  unfold Machine.stepField at stepped
  split_ifs at stepped
  · cases stepped
    exact fits.save _
  · cases stepped
    exact fits.turn _
  · cases stepped
    exact fits.save _
  · exact fits.add stepped

theorem step (fits : m.Fits) {c : CodePoint} (stepped : m.step separator c = some n) : n.Fits := by
  unfold Machine.step at stepped
  split at stepped
  · split_ifs at stepped
    · cases stepped
      exact fits.turn _
    · exact fits.stepField stepped
  · exact fits.stepField stepped
  · split_ifs at stepped
    · cases stepped
      exact fits.save _
    · cases stepped
      exact fits.save _
    · exact fits.add stepped
  · split_ifs at stepped
    · cases stepped
      exact fits.turn _
    · exact fits.add stepped
  · split_ifs at stepped
    · exact fits.add stepped
    · cases stepped
      exact fits.save _
    · cases stepped
      exact fits.save _
  · split_ifs at stepped
    cases stepped
    exact fits

theorem endLine (fits : m.Fits) : m.endLine.Fits := by
  unfold Machine.endLine
  split
  · exact fits.turn _
  · exact fits.turn _
  · exact fits
  · exact fits.save _
  · exact fits.save _
  · exact fits.save _

theorem takeLine (fits : m.Fits) (taken : m.takeLine separator text = some n) : n.Fits := by
  induction text generalizing m with
  | nil =>
    cases taken
    exact fits.endLine
  | cons c text ih =>
    rw [Machine.takeLine] at taken
    split at taken
    · rename_i stepped
      exact ih (fits.step stepped) taken
    · cases taken

end Machine.Fits

theorem length_le_of_mem_records {texts : List Text} {first line : Nat} {r : Record} (fits : m.Fits)
    (here : some r ∈ records separator m first line texts) :
    ∀ field ∈ r.fields, field.length ≤ fieldLimit := by
  induction texts generalizing m first line with
  | nil =>
    rw [records] at here
    split_ifs at here <;> simp at here
  | cons text texts ih =>
    rw [records] at here
    cases taken : m.takeLine separator text with
    | none =>
      simp only [taken, List.mem_cons, reduceCtorEq, false_or] at here
      exact ih .start here
    | some n =>
      simp only [taken] at here
      have next := fits.takeLine taken
      split_ifs at here
      · rcases List.mem_cons.mp here with same | here
        · cases same
          simpa using next.fields
        · exact ih .start here
      · exact ih next here

theorem length_le_of_mem_countedFields {texts : List Text} {line : Nat} {row : List Text}
    (here : row ∈ countedFields (records separator .start line line texts)) :
    ∀ field ∈ row, field.length ≤ fieldLimit := by
  simp only [countedFields, List.mem_map, List.mem_filter, List.mem_filterMap, id] at here
  obtain ⟨r, ⟨⟨_, read, rfl⟩, _⟩, rfl⟩ := here
  exact length_le_of_mem_records .start read

end Intake.Table
