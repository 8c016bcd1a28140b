import Intake.Calendar.Reader
import Intake.Proofs.Checkpoint.Decoding
import Intake.Session

/-! The opening of a file in a session. A file is taken with what the store settles as its saved
progress; where the store does not settle a stored text, the file is taken nonetheless, and the
progress that was offered before stays on offer. -/
namespace Intake.Session
variable {s : Session} {file : ContactFile} {text : Text}

theorem useFile_settled (idle : s.isActive = false) {offered : Option Checkpoint}
    {events : List StoreEvent} {store : ProgressStore}
    (loaded : s.engine.store.load s.workspace file.name = (.ok offered, events, store)) :
    ∃ opened, s.useFile file = (.ok offered, opened) ∧ opened.file? = some file ∧
      opened.pending? = offered ∧ opened.isActive = false ∧ opened.workspace = s.workspace ∧
      opened.engine.store = store := by
  let suggested := { s with file? := some file }.startOver file
  have settled : suggested.engine.store.load suggested.workspace file.name
      = (.ok offered, events, store) := loaded
  have inactive : ¬ s.isActive = true := by simp [idle]
  rw [useFile, if_neg inactive, loadProgress]
  rw [show _ = _ from settled]
  cases offered with
  | none => exact ⟨_, rfl, rfl, rfl, idle, rfl, rfl⟩
  | some c => exact ⟨_, rfl, rfl, rfl, idle, rfl, rfl⟩

theorem useFile_unsettled (idle : s.isActive = false) {failure : LoadFailure}
    {events : List StoreEvent} {store : ProgressStore}
    (loaded : s.engine.store.load s.workspace file.name = (.error failure, events, store)) :
    ∃ opened, s.useFile file = (.error (.progress failure), opened) ∧ opened.file? = some file ∧
      opened.pending? = s.pending? := by
  let suggested := { s with file? := some file }.startOver file
  have failed : suggested.engine.store.load suggested.workspace file.name
      = (.error failure, events, store) := loaded
  have inactive : ¬ s.isActive = true := by simp [idle]
  rw [useFile, if_neg inactive, loadProgress]
  rw [show _ = _ from failed]
  exact ⟨_, rfl, rfl, rfl⟩

/-- Where a text is stored for a file, opening the file takes the file in any case. Unless the text
is hostile, loading its progress answers a checkpoint of the file or none, and that is what is on
offer then. Where the text is hostile, loading fails and opening with it, and what is on offer then
is still what was so before. A text is hostile only if more lists and objects open in it than are
followed, or if it holds an integer out of the range of floating point as a number of a checkpoint.
-/
theorem useFile_stored (idle : s.isActive = false) {storage : Storage}
    (held : s.engine.store.storage.get (progressKey s.workspace file.name)
      = (.ok (some text), storage)) :
    let load := s.engine.store.load s.workspace file.name
    ((∀ failure, ¬ ProgressStore.Hostile text failure) → ∃ offered opened,
        load.1 = .ok offered ∧ s.useFile file = (.ok offered, opened) ∧
          opened.file? = some file ∧ opened.pending? = offered ∧
          ∀ c, offered = some c → c.fileName = file.name) ∧
      (∀ failure, ProgressStore.Hostile text failure → ∃ opened, load.1 = .error failure ∧
        s.useFile file = (.error (.progress failure), opened) ∧ opened.file? = some file ∧
        opened.pending? = s.pending?) ∧
      ∀ failure, ProgressStore.Hostile text failure →
        failure = .nested ∧ Json.depthLimit < text.openings ∨
          failure = .overflow ∧ ∃ data key, Json.read text = .ok data ∧
            Checkpoint.Overflows data key := by
  intro load
  refine ⟨fun settled => ?_, fun failure hostile => ?_, fun failure hostile => ?_⟩
  · obtain ⟨failure, hostile, _⟩ | ⟨_, offered, events, loaded⟩ := ProgressStore.load_of_get held
    · exact absurd hostile (settled failure)
    · have answered : load.1 = .ok offered := congrArg Prod.fst loaded
      obtain ⟨opened, used, taken, pending, _⟩ := useFile_settled idle loaded
      refine ⟨offered, opened, answered, used, taken, pending, ?_⟩
      rintro c rfl
      exact (ProgressStore.offered_of_load answered).named
  · obtain ⟨failure', hostile', loaded⟩ | ⟨settled, _⟩ := ProgressStore.load_of_get held
    · obtain rfl : failure' = failure := hostile'.unique hostile
      obtain ⟨opened, used, taken, pending⟩ := useFile_unsettled idle loaded
      exact ⟨opened, congrArg Prod.fst loaded, used, taken, pending⟩
    · exact absurd hostile (settled failure)
  · cases hostile with
    | nested deep => exact .inl ⟨rfl, Json.read_nested deep⟩
    | overflow read beyond => exact .inr ⟨rfl, _, _, read, beyond⟩

def firstFile : ContactFile :=
  ⟨"first.csv", ["email"], [["ann@x.io"], ["bob@x.io"]], ContactFile.defaultPreview⟩

def secondFile : ContactFile :=
  ⟨"second.csv", ["email"], [["cid@x.io"]], ContactFile.defaultPreview⟩

def firstSaved : Text :=
  "\x7b\"fileName\":\"first.csv\",\"currentRow\":1,\"totalRows\":2,\"currentBatch\":1," ++
    "\"totalBatches\":1,\"mappings\":\x7b\"email\":\"email\"\x7d,\"selectedListIds\":[]," ++
    "\"timestamp\":0\x7d"

def brackets : Text := List.replicate 5000 (.scalar '[')

def crossed : Session :=
  .of (Engine.of "w" 25 (by decide)
    ⟨.of (.memory [(progressKey "w" secondFile.name, brackets),
      (progressKey "w" firstFile.name, firstSaved)]), ProgressStore.defaultFreshness, 0⟩) [] .own

private theorem get_served {s : Session} {name text : Text}
    (served : s.engine.store.storage.refuses s.engine.store.storage.calls .get = none)
    (stored : s.engine.store.storage.medium.get (progressKey s.workspace name) = .ok (some text)) :
    s.engine.store.storage.get (progressKey s.workspace name) = (.ok (some text),
      { s.engine.store.storage with calls := s.engine.store.storage.calls + 1 }) := by
  rw [Storage.get, served, stored]

private theorem crossed_first : crossed.engine.store.storage.medium.get
    (progressKey crossed.workspace firstFile.name) = .ok (some firstSaved) := by
  have other : ¬ progressKey "w" secondFile.name = progressKey "w" firstFile.name := by
    decide +kernel
  simp [crossed, Session.of, Engine.of, Storage.of, Medium.get, workspace, Entries.get?, other]

private theorem crossed_second : crossed.engine.store.storage.medium.get
    (progressKey crossed.workspace secondFile.name) = .ok (some brackets) := by
  simp [crossed, Session.of, Engine.of, Storage.of, Medium.get, workspace, Entries.get?]

private theorem firstSaved_settled (failure : LoadFailure) :
    ¬ ProgressStore.Hostile firstSaved failure := by
  have decoded : (ProgressStore.decode firstSaved).toOption.isSome = true := by decide +kernel
  intro hostile
  rw [ProgressStore.decode_eq_error_iff.mpr hostile] at decoded
  cases decoded

/-- The progress of the first file is offered. -/
theorem useFile_stored_sample :
    ∃ offered opened, crossed.useFile firstFile = (.ok offered, opened) ∧
      opened.pending? = offered ∧ opened.file? = some firstFile := by
  obtain ⟨offered, opened, _, used, taken, pending, _⟩ :=
    (useFile_stored rfl (get_served rfl crossed_first)).1 firstSaved_settled
  exact ⟨offered, opened, used, pending, taken⟩

def endless : Text :=
  Text.ofString ("\x7b\"fileName\":\"first.csv\",\"totalRows\":2,\"currentBatch\":1," ++
    "\"totalBatches\":1,\"mappings\":\x7b\x7d,\"selectedListIds\":[],\"timestamp\":0," ++
    "\"currentRow\":1") ++ List.replicate 309 (.scalar '0') ++ Text.ofString "\x7d"

/-- The second file is taken while the progress of the first one stays on offer. An integer out of
range as the row of a checkpoint is not settled either. -/
theorem hostile_text_unsettled :
    (∃ c opened next, crossed.useFile firstFile = (.ok (some c), opened) ∧
      c.fileName = firstFile.name ∧
      opened.useFile secondFile = (.error (.progress .nested), next) ∧
      next.file? = some secondFile ∧ next.pending? = some c) ∧
    ProgressStore.decode endless = .error .overflow := by
  refine ⟨?_, by decide +kernel⟩
  have hostile : ProgressStore.Hostile brackets .nested := .nested (Json.read_brackets (by decide))
  have shown : (crossed.engine.store.load crossed.workspace firstFile.name).1.toOption.map
      Option.isSome = some true := by
    decide +kernel
  obtain ⟨failure, found, _⟩ | ⟨_, offered, events, loaded⟩ :=
    ProgressStore.load_of_get (@get_served crossed _ _ rfl crossed_first)
  · exact absurd found (firstSaved_settled failure)
  · obtain ⟨opened, used, _, pending, idle, workspace, store⟩ := useFile_settled rfl loaded
    have answered := congrArg Prod.fst loaded
    rw [answered] at shown
    obtain ⟨c, rfl⟩ : ∃ c, offered = some c :=
      Option.isSome_iff_exists.mp (Option.some.inj shown)
    have held := @get_served opened secondFile.name brackets (by rw [store]; rfl)
      (by rw [store, workspace]; exact crossed_second)
    obtain ⟨failure, found, unloaded⟩ | ⟨settled, _⟩ := ProgressStore.load_of_get held
    · obtain rfl := found.unique hostile
      obtain ⟨next, failed, taken, pending'⟩ := useFile_unsettled idle unloaded
      exact ⟨c, opened, next, used, (ProgressStore.offered_of_load answered).named, failed, taken,
        pending'.trans pending⟩
    · exact absurd hostile (settled _)

end Intake.Session
