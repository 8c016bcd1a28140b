import Intake.Checkpoint.Basic
import Intake.Proofs.Json.RoundTrip
import Intake.Proofs.Json.Within

/-! A checkpoint is read back from its stored form, as long as its texts are joined, its mapping has
each key once and a column for it, and its numbers are in range. -/
namespace Intake.Checkpoint

structure Sound (c : Checkpoint) : Prop where
  fileName : c.fileName.isJoined = true
  distinct : (Entries.keys c.mapping).Nodup
  mapped : ∀ entry ∈ c.mapping, entry.1.isJoined = true ∧ entry.2.isJoined = true ∧ entry.2 ≠ []
  lists : ∀ list ∈ c.lists, list.isJoined = true
  row : (Binary64.ofInt? c.row).isSome = true
  totalRows : (Binary64.ofInt? c.totalRows).isSome = true
  batch : (Binary64.ofInt? c.batch).isSome = true
  totalBatches : (Binary64.ofInt? c.totalBatches).isSome = true
  savedAt : (Binary64.ofInt? c.savedAt).isSome = true

variable {c : Checkpoint}

theorem sound_iff : c.Sound ↔ c.fileName.isJoined = true ∧ (Entries.keys c.mapping).Nodup ∧
    (∀ entry ∈ c.mapping, entry.1.isJoined = true ∧ entry.2.isJoined = true ∧ entry.2 ≠ []) ∧
    (∀ list ∈ c.lists, list.isJoined = true) ∧
    ∀ i ∈ [c.row, c.totalRows, c.batch, c.totalBatches, c.savedAt],
      (Binary64.ofInt? i).isSome = true := by
  simp only [List.forall_mem_cons, List.not_mem_nil, false_implies, implies_true, and_true]
  constructor
  · rintro ⟨name, distinct, mapped, lists, row, totalRows, batch, totalBatches, savedAt⟩
    exact ⟨name, distinct, mapped, lists, row, totalRows, batch, totalBatches, savedAt⟩
  · rintro ⟨name, distinct, mapped, lists, row, totalRows, batch, totalBatches, savedAt⟩
    exact ⟨name, distinct, mapped, lists, row, totalRows, batch, totalBatches, savedAt⟩

instance (c : Checkpoint) : Decidable c.Sound := decidable_of_iff' _ sound_iff

private theorem faithful_mapping {depth : Nat} (sound : Sound c) :
    Json.Faithful Json.stored (depth + 1) (.object c.draft.mapping) := by
  refine .object ?_ ?_ ?_
  · simpa [draft, Entries.keys, Function.comp_def] using sound.distinct
  · intro entry here
    obtain ⟨original, mapped, rfl⟩ := List.mem_map.mp here
    exact fun _ => (sound.mapped original mapped).1
  · intro entry here
    obtain ⟨original, mapped, rfl⟩ := List.mem_map.mp here
    exact .text fun _ => (sound.mapped original mapped).2.1

private theorem faithful_lists {depth : Nat} (sound : Sound c) :
    Json.Faithful Json.stored (depth + 1) (.list c.draft.lists) := by
  refine .list fun item here => ?_
  obtain ⟨list, listed, rfl⟩ := List.mem_map.mp here
  exact .text fun _ => sound.lists list listed

theorem Sound.faithful_toJson (sound : Sound c) : Json.Faithful Json.stored Json.depthLimit c.toJson := by
  refine .object ?_ ?_ ?_
  · simp only [Entries.keys, List.map_cons, List.map_nil]
    decide +kernel
  · simp only [List.forall_mem_cons]
    decide +kernel
  · simp only [List.forall_mem_cons]
    exact ⟨.text fun _ => sound.fileName, .integer _, .integer _, .integer _, .integer _,
      faithful_mapping sound, faithful_lists sound, .integer _, by simp⟩

private theorem digits_of_isSome {i : Int} (shown : (Binary64.ofInt? i).isSome = true) :
    i.natAbs < 10 ^ Json.digitLimit := by
  have below := Binary64.isSome_ofInt?_iff.mp shown
  have power : Binary64.leastOverflow ≤ 10 ^ Json.digitLimit := by
    calc Binary64.leastOverflow ≤ 2 ^ 54 * 2 ^ (Binary64.topExponent - 1) :=
          Nat.mul_le_mul_right _ (by decide)
      _ = 2 ^ (54 + (Binary64.topExponent - 1)) := by rw [Nat.pow_add]
      _ ≤ 2 ^ Json.digitLimit := Nat.pow_le_pow_right Nat.two_pos (by decide)
      _ ≤ 10 ^ Json.digitLimit := Nat.pow_le_pow_left (by decide) _
  omega

/-- A checkpoint whose numbers are in range can be written. -/
theorem Sound.exists_write (sound : Sound c) : ∃ t, c.toJson.write Json.stored = .ok t := by
  apply Json.exists_write_iff.mpr
  intro v inside
  have text {t : Text} (here : Json.Within v (.text t)) : Json.Spells Json.stored v := by
    cases here
    trivial
  have number {i : Int} (shown : (Binary64.ofInt? i).isSome = true)
      (here : Json.Within v (.integer i)) : Json.Spells Json.stored v := by
    cases here
    exact digits_of_isSome shown
  rcases inside with _ | _ | ⟨listed, inside⟩
  · trivial
  · simp only [List.mem_cons, List.not_mem_nil, or_false] at listed
    rcases listed with rfl | rfl | rfl | rfl | rfl | rfl | rfl | rfl
    · exact text inside
    · exact number sound.row inside
    · exact number sound.totalRows inside
    · exact number sound.batch inside
    · exact number sound.totalBatches inside
    · rcases inside with _ | _ | ⟨listed, inside⟩
      · trivial
      · obtain ⟨entry, _, rfl⟩ := List.mem_map.mp listed
        exact text inside
    · rcases inside with _ | ⟨listed, inside⟩
      · trivial
      · obtain ⟨list, _, rfl⟩ := List.mem_map.mp listed
        exact text inside
    · exact number sound.savedAt inside

theorem decodeMapping_text {mapping : Mapping} (mapped : ∀ entry ∈ mapping, entry.2 ≠ []) :
    decodeMapping (mapping.map fun entry => (entry.1, .text entry.2)) = mapping := by
  induction mapping with
  | nil => rfl
  | cons entry rest ih =>
    obtain ⟨key, header⟩ := entry
    have later := ih fun other here => mapped other (List.mem_cons_of_mem _ here)
    cases header with
    | nil => exact absurd rfl (mapped (key, []) List.mem_cons_self)
    | cons first more =>
      simp only [decodeMapping, List.map_cons, List.filterMap_cons] at later ⊢
      rw [later]

/-- A checkpoint is decoded from its stored form. -/
theorem Sound.ofJson_toJson (sound : Sound c) : ofJson c.toJson = .ok c := by
  have mapped := decodeMapping_text fun entry here => (sound.mapped entry here).2.2
  have spelled : (c.lists.map Json.text).map Json.spell = c.lists := by
    simp [Function.comp_def, Json.spell]
  have fileName : c.toJson.get? "fileName" = some (.text c.fileName) := rfl
  have mappings : c.toJson.get? "mappings" = some (.object c.draft.mapping) := rfl
  have lists : c.toJson.get? "selectedListIds" = some (.list c.draft.lists) := rfl
  have row : decodeNumber c.toJson "currentRow" = .ok c.row := if_pos sound.row
  have totalRows : decodeNumber c.toJson "totalRows" = .ok c.totalRows := if_pos sound.totalRows
  have batch : decodeNumber c.toJson "currentBatch" = .ok c.batch := if_pos sound.batch
  have totalBatches : decodeNumber c.toJson "totalBatches" = .ok c.totalBatches :=
    if_pos sound.totalBatches
  have savedAt : decodeNumber c.toJson "timestamp" = .ok c.savedAt := if_pos sound.savedAt
  obtain ⟨entries, object⟩ : ∃ entries, c.toJson = .object entries := ⟨_, rfl⟩
  rw [object] at fileName mappings lists row totalRows batch totalBatches savedAt ⊢
  simp only [ofJson, fileName, mappings, lists, row, totalRows, batch, totalBatches, savedAt, bind,
    Except.bind, pure, Except.pure, draft, mapped, spelled]

end Intake.Checkpoint
