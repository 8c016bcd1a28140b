import Intake.Entries
import Mathlib.Tactic.SplitIfs

/-! Entries whose keys are distinct, and lists without repetitions. -/
namespace Intake.Entries
variable {α β : Type} [DecidableEq α]

theorem put_absent {key : α} {entries : Entries α β} (absent : key ∉ keys entries) (value : β) :
    put key value entries = entries ++ [(key, value)] := by
  induction entries with
  | nil => rfl
  | cons entry rest ih =>
    simp only [keys, List.map_cons, List.mem_cons, not_or] at absent
    rw [put, if_neg (Ne.symm absent.1), ih absent.2]
    rfl

theorem ofPairs_of_nodup {pairs : List (α × β)} (distinct : (keys pairs).Nodup) :
    ofPairs pairs = pairs := by
  have collected (rest before : List (α × β)) (distinct : (keys (before ++ rest)).Nodup) :
      rest.foldl (fun entries pair => put pair.1 pair.2 entries) before = before ++ rest := by
    induction rest generalizing before with
    | nil => simp
    | cons pair rest ih =>
      have absent : pair.1 ∉ keys before := by
        simp only [keys, List.map_append, List.map_cons, List.nodup_append] at distinct
        exact fun here => distinct.2.2 _ here _ List.mem_cons_self rfl
      rw [List.foldl_cons, put_absent absent, ih _ (by simpa using distinct)]
      simp
  exact collected pairs [] distinct

theorem mem_of_get? {key : α} {value : β} {entries : Entries α β}
    (found : get? key entries = some value) : (key, value) ∈ entries := by
  induction entries with
  | nil => cases found
  | cons first rest ih =>
    rw [get?] at found
    split at found
    · rename_i same
      cases found
      exact same ▸ List.mem_cons_self
    · exact List.mem_cons_of_mem _ (ih found)

theorem isSome_get? {key : α} {entries : Entries α β} :
    (get? key entries).isSome ↔ key ∈ keys entries := by
  induction entries with
  | nil => simp [get?, keys]
  | cons first rest ih =>
    rw [get?]
    split
    · rename_i same
      simp [keys, same]
    · rename_i other
      simp only [ih, keys, List.map_cons, List.mem_cons, Ne.symm other, false_or]

theorem get?_eq_none {key : α} {entries : Entries α β} :
    get? key entries = none ↔ key ∉ keys entries := by
  rw [← isSome_get?, Option.not_isSome_iff_eq_none]

/-- Of entries with distinct keys each is the one of its key. -/
theorem get?_eq_some {key : α} {value : β} {entries : Entries α β} (once : (keys entries).Nodup) :
    get? key entries = some value ↔ (key, value) ∈ entries := by
  refine ⟨mem_of_get?, fun here => ?_⟩
  induction entries with
  | nil => cases here
  | cons first rest ih =>
    obtain ⟨absent, once⟩ := List.nodup_cons.mp once
    obtain rfl | later := List.mem_cons.mp here
    · simp [get?]
    · have other : first.1 ≠ key := by
        rintro rfl
        exact absent (List.mem_map.mpr ⟨_, later, rfl⟩)
      rw [get?, if_neg other, ih once later]

theorem mem_put {key : α} {value : β} {entries : Entries α β} {entry : α × β}
    (here : entry ∈ put key value entries) : entry = (key, value) ∨ entry ∈ entries := by
  induction entries with
  | nil => simpa [put] using here
  | cons first rest ih =>
    rw [put] at here
    split at here
    · rename_i same
      subst same
      exact (List.mem_cons.mp here).imp id (List.mem_cons_of_mem _)
    · obtain rfl | later := List.mem_cons.mp here
      · exact .inr List.mem_cons_self
      · exact (ih later).imp id (List.mem_cons_of_mem _)

theorem keys_put (key : α) (value : β) (entries : Entries α β) :
    keys (put key value entries)
      = if key ∈ keys entries then keys entries else keys entries ++ [key] := by
  induction entries with
  | nil => simp [put, keys]
  | cons first rest ih =>
    simp only [keys] at ih
    simp only [put, keys]
    split
    · rename_i same
      simp [same]
    · rename_i other
      simp only [List.map_cons, ih, List.mem_cons, Ne.symm other, false_or]
      split_ifs with later <;> simp [later]

theorem nodup_put {key : α} {entries : Entries α β} (once : (keys entries).Nodup) (value : β) :
    (keys (put key value entries)).Nodup := by
  rw [keys_put]
  split
  · exact once
  · rename_i absent
    exact List.nodup_append.mpr ⟨once, by simp, by grind⟩

theorem nodup_ofPairs (pairs : List (α × β)) : (keys (ofPairs pairs)).Nodup :=
  List.foldlRecOn (motive := fun entries => (keys entries).Nodup) pairs _ List.nodup_nil
    fun _ once pair _ => nodup_put once pair.2

theorem mem_ofPairs {pairs : List (α × β)} {entry : α × β} (here : entry ∈ ofPairs pairs) :
    entry ∈ pairs := by
  have all : ∀ entry ∈ ofPairs pairs, entry ∈ pairs :=
    List.foldlRecOn (motive := fun entries => ∀ entry ∈ entries, entry ∈ pairs) pairs _ (by simp)
      fun _ old pair given entry here =>
        (mem_put here).elim (fun same => same ▸ given) (old entry)
  exact all entry here

/-! Taking away and putting together. -/

theorem erase_absent {key : α} {entries : Entries α β} (absent : key ∉ keys entries) :
    erase key entries = entries := by
  refine List.filter_eq_self.mpr fun entry here => ?_
  have other : entry.1 ≠ key := by
    rintro rfl
    exact absent (List.mem_map_of_mem here)
  simpa using other

theorem erase_put (key : α) (value : β) (entries : Entries α β) :
    erase key (put key value entries) = erase key entries := by
  induction entries with
  | nil => simp [put, erase]
  | cons first rest ih =>
    rw [put]
    split_ifs with same
    · simp [erase, same]
    · simpa [erase, same] using ih

theorem put_put (key : α) (first second : β) (entries : Entries α β) :
    put key second (put key first entries) = put key second entries := by
  induction entries with
  | nil => simp [put]
  | cons entry rest ih =>
    simp only [put]
    split_ifs with same
    · simp [put, same]
    · simp [put, same, ih]

theorem keys_erase (key : α) (entries : Entries α β) :
    keys (erase key entries) = (keys entries).filter (· ≠ key) := by
  rw [keys, keys, List.filter_map]
  rfl

theorem get?_append (key : α) (before after : Entries α β) :
    get? key (before ++ after) = (get? key before).or (get? key after) := by
  induction before with
  | nil => rfl
  | cons first rest ih =>
    rw [List.cons_append, get?, get?]
    split_ifs <;> simp [ih]

theorem put_append {key : α} {before : Entries α β} (absent : key ∉ keys before) (value : β)
    (after : Entries α β) : put key value (before ++ after) = before ++ put key value after := by
  induction before with
  | nil => rfl
  | cons first rest ih =>
    simp only [keys, List.map_cons, List.mem_cons, not_or] at absent
    rw [List.cons_append, put, if_neg (Ne.symm absent.1), ih absent.2, List.cons_append]

section
variable {γ δ : Type} [DecidableEq γ] {f : α → γ} {key : α} {entries : Entries α β}

/-! Entries whose keys are written otherwise, one that is asked for unlike all others. -/

theorem get?_map (apart : ∀ other ∈ keys entries, f other = f key → other = key) (g : β → δ) :
    get? (f key) (entries.map (Prod.map f g)) = (get? key entries).map g := by
  induction entries with
  | nil => rfl
  | cons first rest ih =>
    have same : f first.1 = f key ↔ first.1 = key :=
      ⟨apart _ List.mem_cons_self, congrArg f⟩
    simp only [List.map_cons, get?, Prod.map_fst, Prod.map_snd, same,
      ih fun other here => apart other (List.mem_cons_of_mem _ here)]
    split_ifs <;> rfl

theorem put_map (apart : ∀ other ∈ keys entries, f other = f key → other = key) (g : β → δ)
    (value : β) : put (f key) (g value) (entries.map (Prod.map f g))
      = (put key value entries).map (Prod.map f g) := by
  induction entries with
  | nil => rfl
  | cons first rest ih =>
    have same : f first.1 = f key ↔ first.1 = key :=
      ⟨apart _ List.mem_cons_self, congrArg f⟩
    simp only [List.map_cons, put, Prod.map_fst, same,
      ih fun other here => apart other (List.mem_cons_of_mem _ here)]
    split_ifs <;> simp

theorem erase_map (apart : ∀ other ∈ keys entries, f other = f key → other = key) (g : β → δ) :
    erase (f key) (entries.map (Prod.map f g)) = (erase key entries).map (Prod.map f g) := by
  rw [erase, List.filter_map]
  refine congrArg _ (List.filter_congr fun entry here => ?_)
  have same : f entry.1 = f key ↔ entry.1 = key :=
    ⟨apart _ (List.mem_map_of_mem here), congrArg f⟩
  simp [same]

end

private def keep (kept : List α) (key : α) : List α := if key ∈ kept then kept else kept ++ [key]

private theorem nodup_keep {kept : List α} (once : kept.Nodup) (key : α) :
    (keep kept key).Nodup := by
  unfold keep
  split
  · exact once
  · rename_i absent
    rw [List.nodup_append]
    refine ⟨once, by simp, ?_⟩
    rintro other here _ same rfl
    simp only [List.mem_singleton] at same
    exact absent (same ▸ here)

theorem nodup_distinct (list : List α) : (distinct list).Nodup := by
  have collected (rest kept : List α) (once : kept.Nodup) : (rest.foldl keep kept).Nodup := by
    induction rest generalizing kept with
    | nil => exact once
    | cons key rest ih => exact ih _ (nodup_keep once key)
  exact collected list [] List.nodup_nil

theorem distinct_of_nodup {list : List α} (once : list.Nodup) : distinct list = list := by
  have collected (rest kept : List α) (once : (kept ++ rest).Nodup) :
      rest.foldl keep kept = kept ++ rest := by
    induction rest generalizing kept with
    | nil => simp
    | cons key rest ih =>
      have absent : key ∉ kept := by
        rw [List.nodup_append] at once
        exact fun here => once.2.2 _ here _ List.mem_cons_self rfl
      rw [List.foldl_cons, keep, if_neg absent, ih _ (by simpa using once)]
      simp
  exact collected list [] once

theorem distinct_distinct (list : List α) : distinct (distinct list) = distinct list :=
  distinct_of_nodup (nodup_distinct list)

theorem mem_distinct {key : α} {list : List α} : key ∈ distinct list ↔ key ∈ list := by
  have collected (rest kept : List α) : key ∈ rest.foldl keep kept ↔ key ∈ kept ∨ key ∈ rest := by
    induction rest generalizing kept with
    | nil => simp
    | cons other rest ih =>
      rw [List.foldl_cons, ih, keep]
      split <;> grind
  exact (collected list []).trans (by simp)

end Intake.Entries
