import Intake.Checkpoint.Store
import Intake.Proofs.Json.Limits
import Intake.Proofs.Number.Binary64

/-! What comes of a stored text. It is settled, whatever it holds, as a checkpoint or as a refusal,
with two exceptions: a text that is nested more deeply than JSON is read, and an integer out of the
range of floating point where a number is asked for. A checkpoint of a text has each key of its
mapping once. -/
namespace Intake

private theorem bind_eq_error_iff {α β ε : Type} {first : Except ε α} {next : α → Except ε β}
    {error : ε} : first >>= next = .error error ↔
      first = .error error ∨ ∃ value, first = .ok value ∧ next value = .error error := by
  cases first <;> simp [bind, Except.bind]

private theorem bind_eq_ok_iff {α β ε : Type} {first : Except ε α} {next : α → Except ε β}
    {result : β} : first >>= next = .ok result ↔
      ∃ value, first = .ok value ∧ next value = .ok result := by
  cases first <;> simp [bind, Except.bind]

private theorem mapM_eq_error_iff {α β ε : Type} {f : α → Except ε β} {items : List α} {error : ε} :
    items.mapM f = .error error ↔
      ∃ item, items.find? (fun item => (f item).toOption.isNone) = some item ∧
        f item = .error error := by
  induction items with
  | nil => simp [pure, Except.pure]
  | cons first rest ih =>
    rw [List.mapM_cons, List.find?_cons]
    cases result : f first with
    | error error' => simp [result, bind, Except.bind, Except.toOption]
    | ok value => simp [bind_eq_error_iff, ih, pure, Except.pure, Except.toOption]

private theorem Json.object_of_get? {data value : Json} {key : Text}
    (found : data.get? key = some value) : ∃ entries, data = .object entries := by
  cases data <;> simp [Json.get?] at found
  exact ⟨_, rfl⟩

namespace Checkpoint

def numberKeys : List Text :=
  ["currentRow", "totalRows", "currentBatch", "totalBatches", "timestamp"]

structure Shaped (data : Json) : Prop where
  fileName : ∃ name, data.get? "fileName" = some (.text name)
  mappings : ∃ entries, data.get? "mappings" = some (.object entries)
  lists : ∃ items, data.get? "selectedListIds" = some (.list items)

structure Overflows (data : Json) (key : Text) : Prop where
  shaped : Shaped data
  first : numberKeys.find? (fun key => (decodeNumber data key).toOption.isNone) = some key
  beyond : ∃ i, data.get? key = some (.integer i) ∧ Binary64.leastOverflow ≤ i.natAbs

theorem decodeNumber_overflow_iff {data : Json} {key other : Text} :
    decodeNumber data key = .error (.overflow other) ↔ other = key ∧
      ∃ i, data.get? key = some (.integer i) ∧ Binary64.leastOverflow ≤ i.natAbs := by
  unfold decodeNumber
  split
  · rename_i i found
    have range : Binary64.leastOverflow ≤ i.natAbs ↔ ¬ (Binary64.ofInt? i).isSome = true := by
      rw [Binary64.isSome_ofInt?_iff, Nat.not_lt]
    split_ifs with inside <;> simp [found, range, inside, eq_comm]
  · rename_i x found
    split <;> simp [found]
  · rename_i other_integer _
    simp only [Except.error.injEq, reduceCtorEq, false_iff, not_and, not_exists]
    exact fun _ i found => (other_integer i found).elim

theorem ofJson_of_shaped {data : Json} (shaped : Shaped data) {error : DecodeError} :
    ofJson data = .error error ↔ numberKeys.mapM (decodeNumber data) = .error error := by
  obtain ⟨⟨name, named⟩, ⟨mappings, mapped⟩, ⟨lists, listed⟩⟩ := shaped
  obtain ⟨entries, rfl⟩ := Json.object_of_get? named
  simp only [ofJson, named, mapped, listed]
  simp [bind_eq_error_iff, numberKeys, List.mapM_cons, pure, Except.pure]

theorem shaped_or_refused (data : Json) :
    Shaped data ∨ ∃ error, ofJson data = .error error ∧ ∀ key, error ≠ .overflow key := by
  unfold ofJson
  split
  · rename_i entries
    split
    · rename_i name named
      split
      · rename_i mappings mapped
        split
        · rename_i lists listed
          exact .inl ⟨⟨name, named⟩, ⟨mappings, mapped⟩, ⟨lists, listed⟩⟩
        · exact .inr ⟨.lists, rfl, nofun⟩
      · exact .inr ⟨.mappings, rfl, nofun⟩
    · exact .inr ⟨.fileName, rfl, nofun⟩
  · exact .inr ⟨.notObject, rfl, nofun⟩

/-- Decoding fails by the range of floating point exactly where the first number that is not in
order is out of it. -/
theorem ofJson_overflow_iff {data : Json} {key : Text} :
    ofJson data = .error (.overflow key) ↔ Overflows data key := by
  constructor
  · intro failed
    obtain shaped | ⟨error, refused, other⟩ := shaped_or_refused data
    · rw [ofJson_of_shaped shaped, mapM_eq_error_iff] at failed
      obtain ⟨item, first, failed⟩ := failed
      obtain ⟨rfl, beyond⟩ := decodeNumber_overflow_iff.mp failed
      exact ⟨shaped, first, beyond⟩
    · cases refused.symm.trans failed
      exact absurd rfl (other key)
  · rintro ⟨shaped, first, beyond⟩
    rw [ofJson_of_shaped shaped, mapM_eq_error_iff]
    exact ⟨key, first, decodeNumber_overflow_iff.mpr ⟨rfl, beyond⟩⟩

/-- Each part of a checkpoint that was decoded stands in the value. -/
theorem parts_of_ofJson {data : Json} {c : Checkpoint} (decoded : ofJson data = .ok c) :
    data.get? "fileName" = some (.text c.fileName) ∧
      (∃ entries, data.get? "mappings" = some (.object entries) ∧
        c.mapping = decodeMapping entries) ∧
      (∃ items, data.get? "selectedListIds" = some (.list items) ∧ c.lists = items.map Json.spell) ∧
      List.Forall₂ (fun key i => decodeNumber data key = .ok i) numberKeys
        [c.row, c.totalRows, c.batch, c.totalBatches, c.savedAt] := by
  obtain ⟨⟨name, named⟩, ⟨mappings, mapped⟩, ⟨lists, listed⟩⟩ | ⟨_, refused, _⟩ :=
    shaped_or_refused data
  · obtain ⟨entries, rfl⟩ := Json.object_of_get? named
    simp only [ofJson, named, mapped, listed, bind_eq_ok_iff] at decoded
    obtain ⟨row, first, totalRows, second, batch, third, totalBatches, fourth, savedAt, fifth, whole⟩ :=
      decoded
    cases whole
    refine ⟨named, ⟨mappings, mapped, rfl⟩, ⟨lists, listed, rfl⟩, ?_⟩
    exact .cons first (.cons second (.cons third (.cons fourth (.cons fifth .nil))))
  · cases refused.symm.trans decoded

/-- What is decoded keeps the order of the entries. -/
theorem decodeMapping_sublist (entries : Entries Text Json) :
    ((decodeMapping entries).map fun entry => (entry.1, Json.text entry.2)).Sublist entries := by
  induction entries with
  | nil => exact List.Sublist.refl _
  | cons entry rest ih =>
    rw [decodeMapping, List.filterMap_cons]
    split
    · exact ih.cons _
    · rename_i kept shown
      split at shown <;> cases shown
      rename_i text
      obtain ⟨key, value⟩ := entry
      cases text
      exact ih.cons_cons _

theorem keys_decodeMapping (entries : Entries Text Json) :
    (Entries.keys (decodeMapping entries)).Sublist (Entries.keys entries) := by
  have kept := (decodeMapping_sublist entries).map Prod.fst
  rwa [List.map_map] at kept

/-- A checkpoint of a value whose objects have each key once has each key of its mapping once. -/
theorem nodup_mapping {data : Json} (distinct : data.Distinct) {c : Checkpoint}
    (decoded : ofJson data = .ok c) : (Entries.keys c.mapping).Nodup := by
  obtain ⟨_, ⟨entries, mapped, same⟩, _, _⟩ := parts_of_ofJson decoded
  cases distinct.get? mapped with
  | object once _ => exact same ▸ once.sublist (keys_decodeMapping entries)

end Checkpoint

namespace ProgressStore

inductive Hostile (text : Text) : LoadFailure → Prop
  | nested (deep : Json.read text = .error .nested) : Hostile text .nested
  | overflow {data : Json} {key : Text} (read : Json.read text = .ok data)
      (beyond : Checkpoint.Overflows data key) : Hostile text .overflow

theorem decode_eq_error_iff {text : Text} {failure : LoadFailure} :
    decode text = .error failure ↔ Hostile text failure := by
  constructor
  · intro failed
    unfold decode at failed
    cases read : Json.read text with
    | error error =>
      cases error <;> simp only [read] at failed <;> cases failed
      exact .nested read
    | ok data =>
      cases decoded : Checkpoint.ofJson data with
      | ok c => simp [read, decoded] at failed
      | error error =>
        cases error <;> simp only [read, decoded] at failed <;> cases failed
        exact .overflow read (Checkpoint.ofJson_overflow_iff.mp decoded)
  · rintro (deep | ⟨read, beyond⟩)
    · simp only [decode, deep]
    · simp only [decode, read, Checkpoint.ofJson_overflow_iff.mpr beyond]

/-- However a text is written, a checkpoint that is decoded from it has each key of its mapping
once. -/
theorem nodup_of_decode {text : Text} {c : Checkpoint} (decoded : decode text = .ok (.ok c)) :
    (Entries.keys c.mapping).Nodup := by
  unfold decode at decoded
  cases read : Json.read text with
  | error error => cases error <;> simp [read] at decoded
  | ok data =>
    cases result : Checkpoint.ofJson data with
    | error error => cases error <;> simp [read, result] at decoded
    | ok found =>
      simp only [read, result, Except.ok.injEq] at decoded
      exact decoded ▸ Checkpoint.nodup_mapping (Json.distinct_read read) result

theorem Hostile.unique {text : Text} {failure other : LoadFailure} (hostile : Hostile text failure)
    (hostile' : Hostile text other) : failure = other :=
  Except.error.inj
    ((decode_eq_error_iff.mpr hostile).symm.trans (decode_eq_error_iff.mpr hostile'))

/-- What is stored for a pair is settled unless it is hostile, and then loading fails. -/
theorem load_of_get {store : ProgressStore} {workspace fileName text : Text} {storage : Storage}
    (held : store.storage.get (progressKey workspace fileName) = (.ok (some text), storage)) :
    (∃ failure, Hostile text failure ∧
        store.load workspace fileName = (.error failure, [], { store with storage })) ∨
      (∀ failure, ¬ Hostile text failure) ∧ ∃ offered events,
        store.load workspace fileName = (.ok offered, events, { store with storage }) := by
  unfold load
  simp only [held, offer]
  cases decoded : decode text with
  | error failure => exact .inl ⟨failure, decode_eq_error_iff.mp decoded, rfl⟩
  | ok result =>
    refine .inr ⟨fun failure hostile => ?_, ?_⟩
    · cases decoded.symm.trans (decode_eq_error_iff.mpr hostile)
    · simp only [Except.map]
      cases result.bind _ with
      | error why => exact ⟨none, _, rfl⟩
      | ok c => exact ⟨some c, _, rfl⟩

structure Offered (store : ProgressStore) (fileName : Text) (c : Checkpoint) : Prop where
  decoded : ∃ text, decode text = .ok (.ok c)
  named : c.fileName = fileName
  low : 0 ≤ c.row
  high : c.row < c.totalRows
  fresh : store.now - c.savedAt < store.freshness

theorem offered_of_load {store : ProgressStore} {workspace fileName : Text} {c : Checkpoint}
    (loaded : (store.load workspace fileName).1 = .ok (some c)) : store.Offered fileName c := by
  unfold load at loaded
  split at loaded
  · split at loaded <;> cases loaded
  · cases loaded
  · rename_i text storage held
    simp only [offer] at loaded
    cases decoded : decode text with
    | error failure => simp [decoded, Except.map] at loaded
    | ok result =>
      cases result with
      | error why => simp [decoded, Except.map, Except.bind] at loaded
      | ok found =>
        simp only [decoded, Except.map, Except.bind, accept] at loaded
        split_ifs at loaded with other inside stale <;> cases loaded
        exact
          { decoded := ⟨text, decoded⟩
            named := not_not.mp other
            low := inside.1
            high := inside.2
            fresh := Int.not_le.mp stale }

end ProgressStore
end Intake
