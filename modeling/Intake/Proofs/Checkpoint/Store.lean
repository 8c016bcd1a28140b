import Intake.Checkpoint.Store
import Intake.Proofs.Checkpoint.Basic
import Intake.Proofs.Checkpoint.Storage

/-! What a store holds for a pair of a workspace and a file name: a checkpoint that was saved is held,
and one that is held is offered while it is fresh. -/
namespace Intake.ProgressStore

def Holds (store : ProgressStore) (workspace fileName : Text) (c : Checkpoint) : Prop :=
  ∃ text, c.toJson.write Json.stored = .ok text ∧
    store.storage.medium.get (progressKey workspace fileName) = .ok (some text)

/-- A checkpoint that is saved is held, stamped with the time; one that is not is reported, and what
there was stays. -/
theorem save_cases (store : ProgressStore) (workspace fileName : Text) (c : Checkpoint) :
    (∃ error next, store.save workspace fileName c
        = (false, .saveFailed workspace fileName error, next) ∧
        ∀ t, store.storage.medium.get (progressKey workspace fileName) = .ok (some t) →
          next.storage.medium.get (progressKey workspace fileName) = .ok (some t)) ∨
      ∃ text next, store.save workspace fileName c
        = (true, .saved fileName (.integer c.row) (.integer c.totalRows) text, next) ∧
        next.Holds workspace fileName { c with savedAt := store.now } := by
  simp only [save, saveDraft]
  cases written : (c.draft.toJson store.now).write Json.stored with
  | error error => exact .inl ⟨_, _, rfl, fun _ got => got⟩
  | ok text =>
    have plain := Json.isPlain_write _ written
    simp only [Storage.set]
    cases refused : store.storage.refuses store.storage.calls .set with
    | some reason => exact .inl ⟨_, _, rfl, fun _ got => got⟩
    | none =>
      cases taken : store.storage.medium.set (progressKey workspace fileName) text with
      | mk error? medium =>
        cases error? with
        | some error => exact .inl ⟨_, _, rfl, fun _ got => Medium.get_set_failed taken got⟩
        | none => exact .inr ⟨_, _, rfl, text, written, Medium.get_set plain taken⟩

theorem decode_written {c : Checkpoint} {text : Text} (sound : c.Sound)
    (written : c.toJson.write Json.stored = .ok text) : decode text = .ok (.ok c) := by
  simp [decode, Json.read_write Json.stored_regular sound.faithful_toJson written, sound.ofJson_toJson]

/-- What a store holds for a pair is offered if it is accepted. -/
theorem load_of_holds {store : ProgressStore} {workspace fileName : Text} {c : Checkpoint}
    (served : store.storage.refuses store.storage.calls .get = none)
    (held : store.Holds workspace fileName c) (sound : c.Sound) :
    let next := { store with storage := { store.storage with calls := store.storage.calls + 1 } }
    store.load workspace fileName =
      match store.accept fileName c with
      | .ok accepted => (.ok (some accepted), [], next)
      | .error why => (.ok none, [.refused fileName why], next) := by
  intro next
  obtain ⟨text, written, stored⟩ := held
  have offered : next.offer fileName text = .ok (store.accept fileName c) := by
    simp only [offer, decode_written sound written, Except.map, Except.bind]
    rfl
  simp only [load, Storage.get, served, stored]
  rw [show _ = (.ok (store.accept fileName c) :
    Except LoadFailure (Except Refusal Checkpoint)) from offered]
  cases store.accept fileName c <;> rfl

/-- Fresh progress of a row of the file that a store holds is offered. -/
theorem load_held {store : ProgressStore} {workspace : Text} {c : Checkpoint}
    (served : store.storage.refuses store.storage.calls .get = none)
    (held : store.Holds workspace c.fileName c) (sound : c.Sound) (low : 0 ≤ c.row)
    (high : c.row < c.totalRows) (fresh : store.now - c.savedAt < store.freshness) :
    store.load workspace c.fileName = (.ok (some c), [],
      { store with storage := { store.storage with calls := store.storage.calls + 1 } }) := by
  have current : ¬ store.freshness ≤ store.now - c.savedAt := Int.not_le.mpr fresh
  have accepted : store.accept c.fileName c = .ok c := by simp [accept, low, high, current]
  rw [load_of_holds served held sound, accepted]

/-- Progress of no row of the file is not offered, also if a store holds it. -/
theorem load_outside {store : ProgressStore} {workspace : Text} {c : Checkpoint}
    (served : store.storage.refuses store.storage.calls .get = none)
    (held : store.Holds workspace c.fileName c) (sound : c.Sound)
    (outside : ¬ (0 ≤ c.row ∧ c.row < c.totalRows)) :
    store.load workspace c.fileName
      = (.ok none, [.refused c.fileName (.outside c.row c.totalRows)],
        { store with storage := { store.storage with calls := store.storage.calls + 1 } }) := by
  have refused : store.accept c.fileName c = .error (.outside c.row c.totalRows) := by
    simp only [accept, ne_eq, not_true_eq_false, if_false, outside, not_false_eq_true, if_true]
  rw [load_of_holds served held sound, refused]

theorem load_storage (store : ProgressStore) (workspace fileName : Text) :
    (store.load workspace fileName).2.2
      = { store with storage := { store.storage with calls := store.storage.calls + 1 } } := by
  have got : (store.storage.get (progressKey workspace fileName)).2
      = { store.storage with calls := store.storage.calls + 1 } := by
    unfold Storage.get
    split <;> rfl
  unfold load
  rcases read : store.storage.get (progressKey workspace fileName) with ⟨result, storage⟩
  rw [read] at got
  cases got
  rcases result with error | _ | text
  · dsimp only
    split_ifs <;> rfl
  · rfl
  · dsimp only
    split <;> rfl

end Intake.ProgressStore
