import Intake.Proofs.Checkpoint.Store

/-! Names that hold the two halves of a surrogate pair as code points of their own. In a stored text
they cannot be told from names that hold the pair, and are read back as such. -/
namespace Intake

namespace Text

def joined : Text → Text
  | [] => []
  | [c] => [c]
  | c :: d :: rest =>
    if c.isHigh && d.isLow then CodePoint.ofPair c.value d.value :: joined rest
    else c :: joined (d :: rest)

private theorem value_ofPair {c d : CodePoint} (high : c.isHigh = true) (low : d.isLow = true) :
    (CodePoint.ofPair c.value d.value).value
      = 0x10000 + (c.value - 0xD800) * 0x400 + (d.value - 0xDC00) := by
  simp only [CodePoint.isHigh, CodePoint.isLow, Bool.and_eq_true, decide_eq_true_eq] at high low
  exact Json.value_point (by omega)

private theorem single_ofPair {c d : CodePoint} (high : c.isHigh = true) (low : d.isLow = true) :
    (CodePoint.ofPair c.value d.value).isHigh = false ∧
      (CodePoint.ofPair c.value d.value).isLow = false := by
  simp only [CodePoint.isHigh, CodePoint.isLow, value_ofPair high low, Bool.and_eq_false_iff,
    decide_eq_false_iff_not]
  omega

private theorem isLow_head_joined (t : Text) {d : CodePoint} (head : (joined t).head? = some d)
    (low : d.isLow = true) : t.head? = some d := by
  fun_induction joined t with
  | case1 | case2 | case4 => exact head
  | case3 c e rest pair ih =>
    obtain ⟨high, low'⟩ := Bool.and_eq_true_iff.mp pair
    rw [← Option.some.inj head, (single_ofPair high low').2] at low
    cases low

theorem isJoined_joined (t : Text) : (joined t).isJoined = true := by
  have cons {c : CodePoint} {t : Text} (whole : t.isJoined = true)
      (apart : ∀ d, t.head? = some d → (c.isHigh && d.isLow) = false) :
      isJoined (c :: t) = true := by
    cases t with
    | nil => rfl
    | cons d t => simp [isJoined, whole, apart d rfl]
  fun_induction joined t with
  | case1 | case2 => rfl
  | case3 c d rest pair ih =>
    obtain ⟨high, low⟩ := Bool.and_eq_true_iff.mp pair
    exact cons ih fun _ _ => by rw [(single_ofPair high low).1, Bool.false_and]
  | case4 c d rest apart ih =>
    refine cons ih fun e head => ?_
    cases low : e.isLow with
    | false => rw [Bool.and_false]
    | true =>
      obtain rfl : d = e := Option.some.inj (isLow_head_joined _ head low)
      simpa [low] using apart

theorem joined_ne_nil {t : Text} (some : t ≠ []) : joined t ≠ [] := by
  fun_cases joined t with
  | case1 => exact some
  | case2 | case3 | case4 => exact List.cons_ne_nil _ _

private theorem writePoint_beyond {c : CodePoint} (beyond : 0x7F ≤ c.value) :
    Json.writePoint true c =
      if c.value < 0x10000 then Json.unitEscape c.value
      else Json.unitEscape (0xD800 + (c.value - 0x10000) / 0x400)
        ++ Json.unitEscape (0xDC00 + (c.value - 0x10000) % 0x400) := by
  have other {d : Char} (below : d.toNat < 0x7F) : c ≠ .scalar d := by
    rintro rfl
    simp only [CodePoint.value] at beyond
    omega
  unfold Json.writePoint
  split
  all_goals first | exact absurd rfl (other (by decide)) | skip
  simp only [Bool.not_true, Bool.false_eq_true, or_false]
  rw [if_neg (by omega), if_neg (by omega)]

private theorem writePoint_ofPair {c d : CodePoint} (high : c.isHigh = true) (low : d.isLow = true) :
    Json.writePoint true (CodePoint.ofPair c.value d.value)
      = Json.writePoint true c ++ Json.writePoint true d := by
  have whole := value_ofPair high low
  simp only [CodePoint.isHigh, CodePoint.isLow, Bool.and_eq_true, decide_eq_true_eq] at high low
  have first : Json.writePoint true c = Json.unitEscape c.value :=
    (writePoint_beyond (by omega)).trans (if_pos (by omega))
  have second : Json.writePoint true d = Json.unitEscape d.value :=
    (writePoint_beyond (by omega)).trans (if_pos (by omega))
  have upper : 0xD800 + ((CodePoint.ofPair c.value d.value).value - 0x10000) / 0x400 = c.value := by
    omega
  have lower : 0xDC00 + ((CodePoint.ofPair c.value d.value).value - 0x10000) % 0x400 = d.value := by
    omega
  rw [first, second, writePoint_beyond (by omega), if_neg (by omega), upper, lower]

/-- In a stored text a joined text is written as the text itself is. -/
theorem writeString_joined (t : Text) : Json.writeString true (joined t) = Json.writeString true t := by
  have each : (joined t).flatMap (Json.writePoint true) = t.flatMap (Json.writePoint true) := by
    fun_induction joined t with
    | case1 | case2 => rfl
    | case3 c d rest pair ih =>
      obtain ⟨high, low⟩ := Bool.and_eq_true_iff.mp pair
      simp only [List.flatMap_cons, ih, writePoint_ofPair high low, List.append_assoc]
    | case4 c d rest apart ih =>
      simp only [List.flatMap_cons] at ih ⊢
      rw [ih]
  rw [Json.writeString, Json.writeString, each]

end Text

namespace Checkpoint

def joined (c : Checkpoint) : Checkpoint :=
  { c with
    fileName := c.fileName.joined
    mapping := c.mapping.map fun entry => (entry.1, entry.2.joined)
    lists := c.lists.map Text.joined }

private theorem write_text (t : Text) :
    (Json.text t.joined).write Json.stored = (Json.text t).write Json.stored :=
  congrArg Except.ok t.writeString_joined

private theorem write_lists (lists : List Text) :
    Json.writeItems Json.stored ((lists.map Text.joined).map .text)
      = Json.writeItems Json.stored (lists.map .text) := by
  induction lists with
  | nil => rfl
  | cons list lists ih => simp only [List.map_cons, Json.writeItems, write_text, ih]

private theorem write_mapping (mapping : Mapping) :
    Json.writeEntries Json.stored
        ((mapping.map fun entry => (entry.1, entry.2.joined)).map fun entry => (entry.1, .text entry.2))
      = Json.writeEntries Json.stored (mapping.map fun entry => (entry.1, .text entry.2)) := by
  induction mapping with
  | nil => rfl
  | cons entry mapping ih => simp only [List.map_cons, Json.writeEntries, write_text, ih]

theorem write_joined (c : Checkpoint) :
    c.joined.toJson.write Json.stored = c.toJson.write Json.stored := by
  have name := write_text c.fileName
  simp only [Json.write] at name
  simp only [toJson, Draft.toJson, draft, joined, Json.write, Json.writeEntries, write_lists,
    write_mapping, name]

structure Definite (c : Checkpoint) : Prop where
  distinct : (Entries.keys c.mapping).Nodup
  mapped : ∀ entry ∈ c.mapping, entry.1.isJoined = true ∧ entry.2 ≠ []
  row : (Binary64.ofInt? c.row).isSome = true
  totalRows : (Binary64.ofInt? c.totalRows).isSome = true
  batch : (Binary64.ofInt? c.batch).isSome = true
  totalBatches : (Binary64.ofInt? c.totalBatches).isSome = true
  savedAt : (Binary64.ofInt? c.savedAt).isSome = true

theorem Definite.sound {c : Checkpoint} (definite : c.Definite) : c.joined.Sound where
  fileName := c.fileName.isJoined_joined
  distinct := by simpa [joined, Entries.keys, Function.comp_def] using definite.distinct
  mapped := by
    intro entry here
    obtain ⟨original, mapped, rfl⟩ := List.mem_map.mp here
    obtain ⟨key, shown⟩ := definite.mapped original mapped
    exact ⟨key, original.2.isJoined_joined, Text.joined_ne_nil shown⟩
  lists := by
    intro list here
    obtain ⟨original, _, rfl⟩ := List.mem_map.mp here
    exact original.isJoined_joined
  row := definite.row
  totalRows := definite.totalRows
  batch := definite.batch
  totalBatches := definite.totalBatches
  savedAt := definite.savedAt

end Checkpoint

theorem ProgressStore.Holds.joined {store : ProgressStore} {workspace fileName : Text}
    {c : Checkpoint} (held : store.Holds workspace fileName c) :
    store.Holds workspace fileName c.joined := by
  obtain ⟨text, written, stored⟩ := held
  exact ⟨text, c.write_joined.trans written, stored⟩

end Intake
