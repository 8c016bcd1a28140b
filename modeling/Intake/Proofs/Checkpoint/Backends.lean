import Intake.Proofs.Checkpoint.History
import Intake.Proofs.Checkpoint.Naming

/-! Storage in memory and in the files of a directory answers alike behind a store of checkpoints. A
text is stored in the file of its key, which no other key has, and is plain, so that it is read back
as it was written. -/
namespace Intake

namespace Medium

/-! One call on a directory that is there. -/

section
variable {directory : Path} {tree : FileTree} {location target : Location} {key text : Text}

/-- The temporary file is gone once it is moved: what is left is the file of the key. -/
theorem set_files (made : tree.makeDirectory directory = .ok tree)
    (found : tree.locate (fileOf directory key) = .ok target)
    (free : tree.node? target ≠ some .directory) {bytes : Bytes}
    (encoded : Text.encodeUtf8 text = some bytes) :
    (files directory tree).set key text
      = (none, files directory (tree.place target (.file (.bytes bytes)))) := by
  have done := setFileUnder_done_iff.mpr
    ⟨fun _ _ => rfl, Written.intro made found free encoded⟩
  rw [set_files_eq, done]

theorem remove_present (found : tree.locate (fileOf directory key) = .ok target)
    (free : tree.node? target ≠ some .directory) :
    (files directory tree).remove key
      = (none, files directory ⟨Entries.erase target tree.nodes⟩) := by
  simp only [remove, FileTree.remove, found]
  cases here : tree.node? target with
  | none =>
    rw [Entries.erase_absent (FileTree.not_mem_of_free here)]
    rfl
  | some node =>
    cases node with
    | file content => rfl
    | directory => exact absurd here free

end

/-! A directory with a file for each entry. -/

structure Vacant (directory : Path) (location : Location) (tree : FileTree) : Prop where
  located : tree.locate directory = .ok location
  inside : tree.node? location = some .directory
  empty : ∀ name, location ++ [name] ∉ Entries.keys tree.nodes

def entryFile (location : Location) : Text × Text → Location × Node :=
  Prod.map (fun key => location ++ [fileName key])
    fun text => .file (.bytes ((Text.encodeUtf8 text).getD []))

def filled (tree : FileTree) (location : Location) (items : Entries Text Text) : FileTree :=
  ⟨tree.nodes ++ items.map (entryFile location)⟩

structure Stored (items : Entries Text Text) : Prop where
  keys : ∀ key ∈ Entries.keys items, IsKey key
  plain : ∀ entry ∈ items, entry.2.isPlain = true

section
variable {directory : Path} {tree : FileTree} {location : Location} {items : Entries Text Text}
  {key text : Text}

private theorem Stored.apart (stored : Stored items) (progress : IsKey key) (location : Location) :
    ∀ other ∈ Entries.keys items,
      location ++ [fileName other] = location ++ [fileName key] → other = key := by
  intro other here same
  have names := List.singleton_inj.mp (List.append_cancel_left same)
  exact fileName_injective (stored.keys other here) progress names

private theorem directories_filled (tree : FileTree) (location : Location)
    (items : Entries Text Text) (l : Location) (here : tree.node? l = some .directory) :
    (filled tree location items).node? l = some .directory := by
  unfold FileTree.node? at here ⊢
  split_ifs at here ⊢
  · rfl
  · rw [filled, Entries.get?_append, here]
    rfl

private theorem Vacant.node?_filled (vacant : Vacant directory location tree)
    (stored : Stored items) (progress : IsKey key) :
    (filled tree location items).node? (location ++ [fileName key])
      = (Entries.get? key items).map fun text => .file (.bytes ((Text.encodeUtf8 text).getD [])) := by
  rw [FileTree.node?_inside _ _ (isName_fileName progress), filled, Entries.get?_append,
    Entries.get?_eq_none.mpr (vacant.empty _), Option.none_or]
  exact Entries.get?_map (f := fun key => location ++ [fileName key])
    (stored.apart progress location) _

private theorem Vacant.located_filled (vacant : Vacant directory location tree)
    (items : Entries Text Text) (progress : IsKey key) :
    (filled tree location items).locate (fileOf directory key)
      = .ok (location ++ [fileName key]) :=
  FileTree.locate_inside
    (FileTree.locate_of_directories (directories_filled tree location items) vacant.located)
    (directories_filled tree location items location vacant.inside) (isName_fileName progress)

private theorem Vacant.not_directory (vacant : Vacant directory location tree)
    (stored : Stored items) (progress : IsKey key) :
    (filled tree location items).node? (location ++ [fileName key]) ≠ some .directory := by
  rw [vacant.node?_filled stored progress]
  cases Entries.get? key items <;> simp

theorem Vacant.get (vacant : Vacant directory location tree) (stored : Stored items)
    (progress : IsKey key) :
    (files directory (filled tree location items)).get key = (memory items).get key := by
  have here := vacant.node?_filled stored progress
  simp only [Medium.get, FileTree.read, FileTree.find, bind, Except.bind,
    vacant.located_filled items progress, here]
  cases found : Entries.get? key items with
  | none => rfl
  | some text =>
    have plain := stored.plain _ (Entries.mem_of_get? found)
    obtain ⟨bytes, encoded, decoded⟩ :=
      Text.decodeUtf8_encodeUtf8 (Text.isScalar_of_isPlain plain)
    simp [encoded, pure, Except.pure, Content.encode, decoded, Text.unifyLineEnds_plain plain]

theorem Vacant.set (vacant : Vacant directory location tree) (stored : Stored items)
    (progress : IsKey key) (plain : text.isPlain = true) :
    (files directory (filled tree location items)).set key text
      = (none, files directory (filled tree location (Entries.put key text items))) := by
  obtain ⟨bytes, encoded, _⟩ := Text.decodeUtf8_encodeUtf8 (Text.isScalar_of_isPlain plain)
  have kept := directories_filled tree location items
  have located := FileTree.locate_of_directories kept vacant.located
  have placed : (filled tree location items).place (location ++ [fileName key])
      (.file (.bytes bytes)) = filled tree location (Entries.put key text items) := by
    have entries := Entries.put_map (stored.apart progress location)
      (fun text => Node.file (.bytes ((Text.encodeUtf8 text).getD []))) text
    rw [encoded, Option.getD_some] at entries
    rw [FileTree.place, filled, filled, Entries.put_append (vacant.empty _)]
    exact congrArg (fun nodes => FileTree.mk (tree.nodes ++ nodes)) entries
  rw [set_files (FileTree.makeDirectory_made located (kept location vacant.inside))
    (vacant.located_filled items progress) (vacant.not_directory stored progress) encoded, placed]

theorem Vacant.remove (vacant : Vacant directory location tree) (stored : Stored items)
    (progress : IsKey key) :
    (files directory (filled tree location items)).remove key
      = (none, files directory (filled tree location (Entries.erase key items))) := by
  have erased : Entries.erase (location ++ [fileName key]) (filled tree location items).nodes
      = (filled tree location (Entries.erase key items)).nodes := by
    have entries := Entries.erase_map (stored.apart progress location)
      fun text => Node.file (.bytes ((Text.encodeUtf8 text).getD []))
    have others := Entries.erase_absent (vacant.empty (fileName key))
    rw [Entries.erase] at others entries
    rw [filled, filled, Entries.erase, List.filter_append, others]
    exact congrArg (tree.nodes ++ ·) entries
  rw [remove_present (vacant.located_filled items progress)
    (vacant.not_directory stored progress), erased]

theorem Stored.put (stored : Stored items) (progress : IsKey key) (plain : text.isPlain = true) :
    Stored (Entries.put key text items) where
  keys := by
    intro other here
    rw [Entries.keys_put] at here
    split_ifs at here
    · exact stored.keys other here
    · obtain old | new := List.mem_append.mp here
      · exact stored.keys other old
      · exact List.mem_singleton.mp new ▸ progress
  plain := by
    intro entry here
    obtain rfl | old := Entries.mem_put here
    · exact plain
    · exact stored.plain entry old

theorem Stored.erase (stored : Stored items) (key : Text) : Stored (Entries.erase key items) where
  keys := fun other here => stored.keys other
    ((List.filter_sublist.map Prod.fst).subset here)
  plain := fun entry here => stored.plain entry (List.mem_of_mem_filter here)

end

end Medium

/-! Acts on both. -/

inductive StoreAnswer
  | saved (done : Bool) (event : StoreEvent)
  | loaded (found : Except LoadFailure (Option Checkpoint)) (events : List StoreEvent)
  | cleared (event : StoreEvent)
  | told

namespace StoreAct

def answer (store : ProgressStore) : StoreAct → StoreAnswer
  | save workspace fileName c =>
    .saved (store.save workspace fileName c).1 (store.save workspace fileName c).2.1
  | load workspace fileName =>
    .loaded (store.load workspace fileName).1 (store.load workspace fileName).2.1
  | clear workspace fileName => .cleared (store.clear workspace fileName).1
  | clock _ => .told

def keep (keys : List Text) : StoreAct → StoreAnswer → List Text
  | save workspace fileName _, .saved true _ =>
    if progressKey workspace fileName ∈ keys then keys
    else keys ++ [progressKey workspace fileName]
  | clear workspace fileName, _ => keys.filter (· ≠ progressKey workspace fileName)
  | _, _ => keys

end StoreAct

def ProgressStore.answers (store : ProgressStore) : List StoreAct → List StoreAnswer
  | [] => []
  | a :: acts => a.answer store :: (a.run store).answers acts

def StoreAct.live (keys : List Text) (steps : List (StoreAct × StoreAnswer)) : List Text :=
  steps.foldl (fun keys step => step.1.keep keys step.2) keys

structure Mirrors (directory : Path) (location : Location) (tree : FileTree)
    (items : Entries Text Text) (memory files : ProgressStore) : Prop where
  entries : memory.storage.medium = .memory items
  nodes : files.storage.medium = .files directory (Medium.filled tree location items)
  stored : Medium.Stored items
  once : (Entries.keys items).Nodup
  served : ∀ n access, memory.storage.refuses n access = none
  served' : ∀ n access, files.storage.refuses n access = none
  freshness : memory.freshness = files.freshness
  now : memory.now = files.now

namespace Mirrors
variable {directory : Path} {location : Location} {tree : FileTree} {items : Entries Text Text}
  {memory files : ProgressStore}

private theorem offer_eq (storage : Storage) (freshness now : Int) :
    ProgressStore.offer ⟨storage, freshness, now⟩
      = ProgressStore.offer ⟨.of (.memory []), freshness, now⟩ := rfl

private theorem load (mirrors : Mirrors directory location tree items memory files)
    (vacant : Medium.Vacant directory location tree) (workspace fileName : Text) :
    (StoreAct.load workspace fileName).answer memory
      = (StoreAct.load workspace fileName).answer files := by
  have filed := vacant.get mirrors.stored (Medium.isKey_progressKey workspace fileName)
  have held : (Medium.memory items).get (progressKey workspace fileName)
    = .ok (Entries.get? (progressKey workspace fileName) items) := rfl
  simp only [StoreAct.answer, ProgressStore.load, Storage.get, mirrors.served, mirrors.served',
    mirrors.entries, mirrors.nodes, filed, held]
  cases Entries.get? (progressKey workspace fileName) items with
  | none => rfl
  | some text =>
    simp only [offer_eq ⟨_, _, _⟩, mirrors.freshness, mirrors.now]
    cases ProgressStore.offer _ fileName text with
    | error failure => rfl
    | ok result => cases result <;> rfl

theorem act (mirrors : Mirrors directory location tree items memory files)
    (vacant : Medium.Vacant directory location tree) (a : StoreAct) :
    a.answer memory = a.answer files ∧
      ∃ items', Mirrors directory location tree items' (a.run memory) (a.run files) ∧
        Entries.keys items' = a.keep (Entries.keys items) (a.answer memory) := by
  have ⟨entries, nodes, stored, once, served, served', freshness, now⟩ := mirrors
  cases a with
  | save workspace fileName c =>
    simp only [StoreAct.answer, StoreAct.run, ProgressStore.save, ProgressStore.saveDraft, now]
    cases written : (c.draft.toJson files.now).write Json.stored with
    | error error => exact ⟨rfl, items, mirrors, rfl⟩
    | ok text =>
      have plain := Json.isPlain_write _ written
      have progress := Medium.isKey_progressKey workspace fileName
      have filed := vacant.set stored progress plain
      have held : (Medium.memory items).set (progressKey workspace fileName) text
        = (none, .memory (Entries.put (progressKey workspace fileName) text items)) := rfl
      simp only [Storage.set, served, served', entries, nodes, filed, held]
      refine ⟨trivial, _, ⟨rfl, rfl, stored.put progress plain, Entries.nodup_put once text, served,
        served', freshness, rfl⟩, ?_⟩
      rw [StoreAct.keep, Entries.keys_put]
      congr
  | load workspace fileName =>
    refine ⟨mirrors.load vacant workspace fileName, items, ?_, rfl⟩
    simp only [StoreAct.run, ProgressStore.load_storage]
    exact ⟨entries, nodes, stored, once, served, served', freshness, now⟩
  | clear workspace fileName =>
    have progress := Medium.isKey_progressKey workspace fileName
    have filed := vacant.remove stored progress
    have held : (Medium.memory items).remove (progressKey workspace fileName)
      = (none, .memory (Entries.erase (progressKey workspace fileName) items)) := rfl
    simp only [StoreAct.answer, StoreAct.run, ProgressStore.clear, Storage.remove, served, served',
      entries, nodes, filed, held]
    refine ⟨trivial, _, ⟨rfl, rfl, stored.erase _, ?_, served, served', freshness, now⟩,
      Entries.keys_erase _ items⟩
    rw [Entries.keys_erase]
    exact once.filter _
  | clock now =>
    exact ⟨rfl, items, ⟨entries, nodes, stored, once, served, served', freshness, rfl⟩, rfl⟩

theorem after (mirrors : Mirrors directory location tree items memory files)
    (vacant : Medium.Vacant directory location tree) (acts : List StoreAct) :
    memory.answers acts = files.answers acts ∧
      ∃ items', Mirrors directory location tree items' (memory.after acts) (files.after acts) ∧
        Entries.keys items'
          = StoreAct.live (Entries.keys items) (acts.zip (memory.answers acts)) := by
  induction acts generalizing items memory files with
  | nil => exact ⟨rfl, items, mirrors, rfl⟩
  | cons a acts ih =>
    obtain ⟨answer, items', next, keys⟩ := mirrors.act vacant a
    obtain ⟨answers, items'', last, keys'⟩ := ih next
    refine ⟨?_, items'', last, ?_⟩
    · rw [ProgressStore.answers, ProgressStore.answers, answer, answers]
    · rw [keys', keys]
      rfl

end Mirrors

/-- A store with the files of a directory is as good as one in memory. After any acts on both, with
an empty directory and an empty memory before them, each has answered and reported what the other
has. Besides the nodes that there were, the tree then has one file for each entry of the memory, with
the text of the entry, and no temporary file; the entries are those of the keys that were saved and
not cleared since. Pairs whose texts have one digest share their entry, and do so in both. -/
theorem files_mirror_memory {directory : Path} {location : Location} {tree : FileTree}
    (vacant : Medium.Vacant directory location tree) (freshness start : Int)
    (acts : List StoreAct) :
    let memory := ProgressStore.fresh freshness start
    let files : ProgressStore := ⟨.of (.files directory tree), freshness, start⟩
    files.answers acts = memory.answers acts ∧ ∃ items,
      (memory.after acts).storage.medium = .memory items ∧
        Entries.keys items = StoreAct.live [] (acts.zip (memory.answers acts)) ∧
        (files.after acts).storage.medium
          = .files directory ⟨tree.nodes ++ items.map (Medium.entryFile location)⟩ ∧
        (Entries.keys (items.map (Medium.entryFile location))).Nodup ∧
        ∀ n, location ++ [Medium.temporaryName n] ∉
          Entries.keys (tree.nodes ++ items.map (Medium.entryFile location)) := by
  intro memory files
  have mirrors : Mirrors directory location tree [] memory files :=
    { entries := rfl
      nodes := by simp [files, Storage.of, Medium.filled]
      stored := ⟨nofun, nofun⟩
      once := List.nodup_nil
      served := fun _ _ => rfl
      served' := fun _ _ => rfl
      freshness := rfl
      now := rfl }
  obtain ⟨answers, items, last, keys⟩ := mirrors.after vacant acts
  have files_keys : Entries.keys (items.map (Medium.entryFile location))
      = (Entries.keys items).map fun key => location ++ [Medium.fileName key] := by
    simp [Entries.keys, Medium.entryFile]
  refine ⟨answers.symm, items, last.entries, keys, last.nodes, ?_, fun n here => ?_⟩
  · rw [files_keys]
    refine last.once.map_on fun key here other here' same => ?_
    have names := List.singleton_inj.mp (List.append_cancel_left same)
    exact Medium.fileName_injective (last.stored.keys key here) (last.stored.keys other here') names
  · simp only [Entries.keys, List.map_append, List.mem_append] at here files_keys
    obtain old | new := here
    · exact vacant.empty _ old
    · rw [files_keys] at new
      obtain ⟨key, here, same⟩ := List.mem_map.mp new
      have names := List.singleton_inj.mp (List.append_cancel_left same)
      exact Medium.fileName_ne_temporary (last.stored.keys key here) n names

def sampleTree : FileTree := ⟨[([Text.ofString "progress"], .directory)]⟩

def sampleActs : List StoreAct :=
  [.save "w" "a.csv" (sampleSaved "a.csv" 5), .save "w" "b/:.csv" (sampleSaved "b/:.csv" 6),
    .load "w" "b/:.csv", .clear "w" "a.csv"]

/-- The file of the second one is left. -/
theorem files_mirror_memory_sample :
    (ProgressStore.mk (.of (.files (Path.ofText "progress") sampleTree)) 1000 700).answers
        sampleActs = (ProgressStore.fresh 1000 700).answers sampleActs ∧ ∃ items,
      Entries.keys items = [progressKey "w" "b/:.csv"] ∧
        ((ProgressStore.mk (.of (.files (Path.ofText "progress") sampleTree)) 1000 700).after
          sampleActs).storage.medium = .files (Path.ofText "progress")
            ⟨sampleTree.nodes ++ items.map (Medium.entryFile [Text.ofString "progress"])⟩ := by
  have vacant : Medium.Vacant (Path.ofText "progress") [Text.ofString "progress"] sampleTree :=
    { located := by rfl
      inside := by decide +kernel
      empty := by simp [sampleTree, Entries.keys] }
  obtain ⟨answers, items, _, keys, nodes, _⟩ := files_mirror_memory vacant 1000 700 sampleActs
  exact ⟨answers, items, keys.trans (by decide +kernel), nodes⟩

end Intake
