import Intake.Proofs.Checkpoint.History
import Intake.Proofs.Checkpoint.Joined

/-! Stores that have no progress to offer for a pair, since it was cleared or is of no row of its file.
This stays so, whichever calls the storage refuses, until something is saved for the pair. -/
namespace Intake

namespace Medium

def isMemory : Medium → Bool
  | memory _ => true
  | files _ _ => false

@[simp] theorem isMemory_set (medium : Medium) (key text : Text) :
    (medium.set key text).2.isMemory = medium.isMemory := by
  cases medium <;> rfl

@[simp] theorem isMemory_remove (medium : Medium) (key : Text) :
    (medium.remove key).2.isMemory = medium.isMemory := by
  cases medium with
  | memory items => rfl
  | files directory tree =>
    simp only [remove]
    split <;> rfl

theorem get_set_other {medium : Medium} {key other : Text} (memory : medium.isMemory = true)
    (apart : other ≠ key) (text : Text) : (medium.set other text).2.get key = medium.get key := by
  cases medium with
  | memory items => simp [set, get, Entries.get?_put, apart]
  | files directory tree => cases memory

end Medium

def StoreAct.Misses (memory : Bool) (pair : Text × Text) : StoreAct → Prop
  | save workspace fileName _ =>
    memory = true ∧ progressKey workspace fileName ≠ progressKey pair.1 pair.2
  | load _ _ | clear _ _ | clock _ => True

namespace ProgressStore
variable {store next : ProgressStore} {pair : Text × Text}

def Exhausted (store : ProgressStore) (pair : Text × Text) : Prop :=
  ∃ c : Checkpoint, store.Keeps pair (some c) ∧ ¬ (0 ≤ c.row ∧ c.row < c.totalRows)

def Spent (store : ProgressStore) (pair : Text × Text) : Prop :=
  store.Keeps pair none ∨ store.Exhausted pair

theorem Exhausted.of_get (exhausted : store.Exhausted pair)
    (same : next.storage.medium.get (progressKey pair.1 pair.2)
      = store.storage.medium.get (progressKey pair.1 pair.2)) : next.Exhausted pair := by
  obtain ⟨c, kept, outside⟩ := exhausted
  exact ⟨c, kept.of_get same, outside⟩

theorem Spent.of_get (spent : store.Spent pair)
    (same : next.storage.medium.get (progressKey pair.1 pair.2)
      = store.storage.medium.get (progressKey pair.1 pair.2)) : next.Spent pair :=
  spent.imp (fun empty => same.trans empty) fun exhausted => exhausted.of_get same

/-- A text that was there stays, or gives way to another one, if something is saved. -/
theorem get_save (store : ProgressStore) (workspace fileName : Text) (c : Checkpoint) {t : Text}
    (got : store.storage.medium.get (progressKey workspace fileName) = .ok (some t)) :
    ∃ t', (store.save workspace fileName c).2.2.storage.medium.get (progressKey workspace fileName)
      = .ok (some t') := by
  obtain ⟨error, next, failed, stays⟩ | ⟨text, next, saved, written, _, stored⟩ :=
    store.save_cases workspace fileName c
  · rw [failed]
    exact ⟨t, stays t got⟩
  · rw [saved]
    exact ⟨written, stored⟩

/-- Saving progress of no row exhausts a pair, and one that is exhausted stays so if that fails. -/
theorem exhausted_save {workspace fileName : Text} {c : Checkpoint}
    (definite : { c with savedAt := store.now }.Definite)
    (outside : ¬ (0 ≤ c.row ∧ c.row < c.totalRows))
    (done : (store.save workspace fileName c).1 = true ∨ store.Exhausted (workspace, fileName)) :
    (store.save workspace fileName c).2.2.Exhausted (workspace, fileName) := by
  obtain ⟨error, next, failed, stays⟩ | ⟨text, next, saved, held⟩ :=
    store.save_cases workspace fileName c
  · rw [failed] at done ⊢
    obtain saved | exhausted := done
    · cases saved
    · obtain ⟨_, ⟨_, t, _, got⟩, _⟩ := id exhausted
      exact exhausted.of_get ((stays t got).trans got.symm)
  · rw [saved]
    exact ⟨_, ⟨definite.sound, held.joined⟩, outside⟩

private theorem clear_medium (store : ProgressStore) (workspace fileName : Text) :
    (store.clear workspace fileName).2.storage.medium = store.storage.medium ∨
      (store.clear workspace fileName).2.storage.medium
        = (store.storage.medium.remove (progressKey workspace fileName)).2 := by
  simp only [clear, Storage.remove]
  cases store.storage.refuses store.storage.calls .remove with
  | some reason => exact .inl rfl
  | none =>
    rcases store.storage.medium.remove (progressKey workspace fileName) with ⟨_ | error, medium⟩
    · exact .inr rfl
    · exact .inr rfl

theorem clear_cases (store : ProgressStore) (workspace fileName : Text) :
    (∃ error next, store.clear workspace fileName = (.clearFailed fileName error, next)) ∨
      ∃ next, store.clear workspace fileName = (.cleared fileName, next) ∧
        next.Keeps (workspace, fileName) none := by
  simp only [clear, Storage.remove]
  cases store.storage.refuses store.storage.calls .remove with
  | some reason => exact .inl ⟨_, _, rfl⟩
  | none =>
    rcases taken : store.storage.medium.remove (progressKey workspace fileName) with
      ⟨_ | error, medium⟩
    · exact .inr ⟨_, rfl, Medium.get_remove taken⟩
    · exact .inl ⟨_, _, rfl⟩

private theorem save_medium (store : ProgressStore) (workspace fileName : Text) (c : Checkpoint) :
    (store.save workspace fileName c).2.2.storage.medium = store.storage.medium ∨
      ∃ text, (store.save workspace fileName c).2.2.storage.medium
        = (store.storage.medium.set (progressKey workspace fileName) text).2 := by
  simp only [save, saveDraft, Storage.set]
  cases (c.draft.toJson store.now).write Json.stored with
  | error error => exact .inl rfl
  | ok text =>
    cases store.storage.refuses store.storage.calls .set with
    | some reason => exact .inl rfl
    | none =>
      refine .inr ⟨text, ?_⟩
      dsimp only
      cases (store.storage.medium.set (progressKey workspace fileName) text).1 <;> rfl

theorem isMemory_run (a : StoreAct) (store : ProgressStore) :
    (a.run store).storage.medium.isMemory = store.storage.medium.isMemory := by
  cases a with
  | save workspace fileName c =>
    rcases store.save_medium workspace fileName c with same | ⟨text, same⟩ <;>
      simp [StoreAct.run, same]
  | load workspace fileName => rw [StoreAct.run, load_storage]
  | clear workspace fileName =>
    rcases store.clear_medium workspace fileName with same | same <;> simp [StoreAct.run, same]
  | clock now => rfl

theorem Spent.run (spent : store.Spent pair) {a : StoreAct}
    (misses : a.Misses store.storage.medium.isMemory pair) : (a.run store).Spent pair := by
  cases a with
  | save workspace fileName c =>
    apply spent.of_get
    rcases store.save_medium workspace fileName c with same | ⟨text, same⟩
    · rw [StoreAct.run, same]
    · rw [StoreAct.run, same, Medium.get_set_other misses.1 misses.2]
  | load workspace fileName =>
    apply spent.of_get
    rw [StoreAct.run, load_storage]
  | clear workspace fileName =>
    rcases store.clear_medium workspace fileName with same | removed
    · exact spent.of_get (by rw [StoreAct.run, same])
    · have after {t? : Option Text}
          (got : store.storage.medium.get (progressKey pair.1 pair.2) = .ok t?) :=
        Medium.get_of_remove _ (progressKey workspace fileName) _ got
      rw [← removed] at after
      rcases id spent with empty | ⟨_, ⟨_, t, _, got⟩, _⟩
      · exact .inl ((after empty).elim id id)
      · exact (after got).elim (fun same => spent.of_get (same.trans got.symm)) .inl
  | clock now => exact spent.of_get rfl

/-- A store that has no progress to offer for a pair has none until something is saved for it. -/
theorem Spent.after (spent : store.Spent pair) {acts : List StoreAct}
    (miss : ∀ a ∈ acts, a.Misses store.storage.medium.isMemory pair) :
    (store.after acts).Spent pair := by
  induction acts generalizing store with
  | nil => exact spent
  | cons a acts ih =>
    apply ih (spent.run (miss a List.mem_cons_self))
    intro other here
    rw [isMemory_run]
    exact miss other (List.mem_cons_of_mem _ here)

theorem Spent.load {workspace fileName : Text} (spent : store.Spent (workspace, fileName)) :
    (store.load workspace fileName).1 = .ok none := by
  cases served : store.storage.refuses store.storage.calls .get with
  | some reason => simp [ProgressStore.load, Storage.get, served, StorageError.isPersistence]
  | none =>
    rcases spent with empty | ⟨c, ⟨sound, held⟩, outside⟩
    · have stored : store.storage.medium.get (progressKey workspace fileName) = .ok none := empty
      simp [ProgressStore.load, Storage.get, served, stored]
    · rw [load_of_holds served held sound]
      rcases store.accept_cases fileName c with ⟨all, _⟩ | ⟨_, why, refused⟩
      · exact absurd ⟨all.2.1, all.2.2.1⟩ outside
      · rw [refused]

end ProgressStore
end Intake
