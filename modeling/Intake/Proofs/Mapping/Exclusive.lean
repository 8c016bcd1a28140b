import Intake.Proofs.Mapping

/-! Mappings in which no key and no header is there twice, so that they are read both ways alike.
Suggesting and restricting come to such a mapping of keys in the catalogue onto headers of the file,
and assigning keeps it one. -/
namespace Intake

namespace Mapping
variable {headers : List Text} {mapping next : Mapping} {key header : Text}

structure Exclusive (mapping : Mapping) : Prop where
  keys : (Entries.keys mapping).Nodup
  once : (Entries.values mapping).Nodup

structure Proper (headers : List Text) (mapping : Mapping) : Prop extends Exclusive mapping where
  fits : ∀ entry ∈ mapping, Fits headers entry

theorem Exclusive.sublist (exclusive : Exclusive mapping) (part : next.Sublist mapping) :
    Exclusive next :=
  ⟨exclusive.keys.sublist (part.map Prod.fst), exclusive.once.sublist (part.map Prod.snd)⟩

theorem Proper.nil (headers : List Text) : Proper headers [] :=
  ⟨⟨List.nodup_nil, List.nodup_nil⟩, by simp⟩

theorem proper_restrict (headers : List Text) (distinct : (Entries.keys mapping).Nodup) :
    Proper headers (restrict headers mapping).1 :=
  have fitting := (restrict_fitting headers mapping).1
  ⟨⟨nodup_restrict distinct, fitting.once⟩, fitting.fits⟩

/-! Suggesting. -/

private theorem named_fits {a : Attribute} (here : header ∈ headers)
    (named : Attribute.named? header Attribute.catalogue = some a) :
    Fits headers (a.key, header) := by
  refine ⟨?_, ?_, here⟩
  · exact List.find?_isSome.mpr ⟨a, List.mem_of_find?_eq_some named, by simp⟩
  · rintro rfl
    have names : Attribute.isNamedBy [] a = true := List.find?_some named
    simp [Attribute.isNamedBy, show (Text.strip []).lower = [] from rfl] at names

/-- What is suggested is proper: a header names at most one attribute, so that it is not there
before the key of that one is. -/
theorem proper_suggest (headers : List Text) : Proper headers (suggest headers) := by
  -- Along the headers each entry has the key of the attribute that its header names.
  let Named (mapping : Mapping) : Prop := ∀ entry ∈ mapping,
    ∃ a, Attribute.named? entry.2 Attribute.catalogue = some a ∧ a.key = entry.1
  refine (List.foldlRecOn (motive := fun mapping => Proper headers mapping ∧ Named mapping)
    headers _ ⟨.nil headers, by simp [Named]⟩ ?_).1
  rintro mapping ⟨proper, names⟩ header here
  cases named : Attribute.named? header Attribute.catalogue with
  | none => exact ⟨proper, names⟩
  | some a =>
    dsimp only
    split_ifs with taken
    · exact ⟨proper, names⟩
    · have free : a.key ∉ Entries.keys mapping := fun there => taken (Entries.isSome_get?.mpr there)
      have unused : header ∉ Entries.values mapping := by
        intro used
        obtain ⟨entry, old, rfl⟩ := List.mem_map.mp used
        obtain ⟨other, same, key⟩ := names entry old
        rw [named] at same
        obtain rfl := Option.some.inj same
        exact free (List.mem_map.mpr ⟨entry, old, key.symm⟩)
      have keys : (Entries.keys (mapping ++ [(a.key, header)])).Nodup := by
        have apart := List.nodup_append.mpr ⟨proper.keys, List.nodup_singleton a.key,
          fun other there _ same => by rintro rfl; exact free (List.mem_singleton.mp same ▸ there)⟩
        simpa [Entries.keys] using apart
      have once : (Entries.values (mapping ++ [(a.key, header)])).Nodup := by
        have apart := List.nodup_append.mpr ⟨proper.once, List.nodup_singleton header,
          fun other there _ same => by rintro rfl; exact unused (List.mem_singleton.mp same ▸ there)⟩
        simpa [Entries.values] using apart
      refine ⟨⟨⟨keys, once⟩, ?_⟩, ?_⟩ <;> intro entry there <;>
        obtain old | new := List.mem_append.mp there
      · exact proper.fits entry old
      · exact List.mem_singleton.mp new ▸ named_fits here named
      · exact names entry old
      · exact List.mem_singleton.mp new ▸ ⟨a, named, rfl⟩

/-! Assigning. -/

private def release (key header : Text) (mapping : Mapping) : Mapping :=
  mapping.filter fun entry => entry.2 ≠ header || entry.1 = key

private theorem assign_eq (known : Attribute.isKnown key = true) (shown : header ≠ []) :
    assign key (some header) mapping = .ok (Entries.put key header (release key header mapping)) := by
  obtain ⟨c, rest, rfl⟩ := List.exists_cons_of_ne_nil shown
  simp [assign, known, release]

private theorem release_holds {entry : Text × Text} (here : entry ∈ release key header mapping)
    (same : entry.2 = header) : entry.1 = key := by
  simpa [same] using (List.mem_filter.mp here).2

private theorem get?_release (exclusive : Exclusive mapping) {other : Text} (apart : other ≠ key) :
    Entries.get? other (release key header mapping)
      = if Entries.get? other mapping = some header then none else Entries.get? other mapping := by
  have distinct : (Entries.keys (release key header mapping)).Nodup :=
    (exclusive.sublist List.filter_sublist).keys
  ext value
  rw [Entries.get?_eq_some distinct]
  split_ifs with held
  · have here := (Entries.get?_eq_some exclusive.keys).mp held
    simp only [release, List.mem_filter, iff_false]
    rintro ⟨there, kept⟩
    have same := (Entries.get?_eq_some exclusive.keys).mpr there
    rw [held] at same
    simp [Option.some.inj same, apart] at kept
  · rw [Entries.get?_eq_some exclusive.keys]
    simp only [release, List.mem_filter, and_iff_left_iff_imp]
    intro there
    have other : value ≠ header := by
      rintro rfl
      exact held ((Entries.get?_eq_some exclusive.keys).mpr there)
    simp [other]

private theorem once_put (exclusive : Exclusive mapping)
    (holds : ∀ entry ∈ mapping, entry.2 = header → entry.1 = key) :
    (Entries.values (Entries.put key header mapping)).Nodup := by
  induction mapping with
  | nil => simp [Entries.put, Entries.values]
  | cons first rest ih =>
    obtain ⟨absent, keys⟩ := List.nodup_cons.mp exclusive.keys
    obtain ⟨unused, once⟩ := List.nodup_cons.mp exclusive.once
    rw [Entries.put]
    split_ifs with same
    · refine List.nodup_cons.mpr ⟨fun used => ?_, once⟩
      obtain ⟨entry, later, held⟩ := List.mem_map.mp used
      have mapped := holds entry (List.mem_cons_of_mem _ later) held
      exact absent (List.mem_map.mpr ⟨entry, later, mapped.trans same.symm⟩)
    · refine List.nodup_cons.mpr ⟨fun used => ?_,
        ih ⟨keys, once⟩ fun entry later => holds entry (List.mem_cons_of_mem _ later)⟩
      obtain ⟨entry, there, held⟩ := List.mem_map.mp used
      obtain rfl | later := Entries.mem_put there
      · exact same (holds first List.mem_cons_self held.symm)
      · exact unused (held ▸ List.mem_map_of_mem later)

/-- An exclusive mapping is read both ways alike. -/
theorem Exclusive.keyFor?_eq_some (exclusive : Exclusive mapping) :
    keyFor? header mapping = some key ↔ Entries.get? key mapping = some header := by
  rw [Entries.get?_eq_some exclusive.keys, keyFor?, Option.map_eq_some_iff]
  constructor
  · rintro ⟨entry, found, rfl⟩
    have same : entry.2 = header := by simpa using List.find?_some found
    exact same ▸ List.mem_of_find?_eq_some found
  · intro here
    have shown : (mapping.find? fun entry => entry.2 = header).isSome :=
      List.find?_isSome.mpr ⟨_, here, by simp⟩
    obtain ⟨entry, found⟩ := Option.isSome_iff_exists.mp shown
    have same : entry.2 = header := by simpa using List.find?_some found
    have one := List.inj_on_of_nodup_map exclusive.once (List.mem_of_find?_eq_some found) here same
    exact ⟨entry, found, congrArg Prod.fst one⟩

structure Assigned (mapping : Mapping) (key header : Text) (next : Mapping) : Prop where
  exclusive : Exclusive next
  holder : keyFor? header next = some key
  others : ∀ other, other ≠ key → Entries.get? other next
    = if Entries.get? other mapping = some header then none else Entries.get? other mapping
  lost : ∀ first ∈ Entries.keys mapping, ∀ second ∈ Entries.keys mapping,
    first ∉ Entries.keys next → second ∉ Entries.keys next → first = second

theorem Exclusive.assign (exclusive : Exclusive mapping) (known : Attribute.isKnown key = true)
    (shown : header ≠ []) :
    ∃ next, Mapping.assign key (some header) mapping = .ok next ∧ Assigned mapping key header next := by
  have part : Exclusive (release key header mapping) := exclusive.sublist List.filter_sublist
  have all : Exclusive (Entries.put key header (release key header mapping)) :=
    ⟨Entries.nodup_put part.keys _, once_put part fun _ => release_holds⟩
  have others (other : Text) (apart : other ≠ key) :
      Entries.get? other (Entries.put key header (release key header mapping))
        = if Entries.get? other mapping = some header then none
          else Entries.get? other mapping := by
    rw [Entries.get?_put, if_neg apart.symm, get?_release exclusive apart]
  have placed : Entries.get? key (Entries.put key header (release key header mapping))
      = some header := by
    rw [Entries.get?_put, if_pos rfl]
  -- A key is lost only for having had the header.
  have held (other : Text) (there : other ∈ Entries.keys mapping)
      (gone : other ∉ Entries.keys (Entries.put key header (release key header mapping))) :
      keyFor? header mapping = some other := by
    rw [exclusive.keyFor?_eq_some]
    have apart : other ≠ key := by
      rintro rfl
      simp [Entries.get?_eq_none.mpr gone] at placed
    by_contra unheld
    have kept := others other apart
    rw [if_neg unheld, Entries.get?_eq_none.mpr gone] at kept
    exact Entries.get?_eq_none.mp kept.symm there
  refine ⟨_, assign_eq known shown, ?_⟩
  exact
    { exclusive := all
      holder := all.keyFor?_eq_some.mpr placed
      others
      lost := fun first there second there' gone gone' =>
        Option.some.inj ((held first there gone).symm.trans (held second there' gone')) }

theorem assign_unknown (header : Option Text) (mapping : Mapping)
    (unknown : Attribute.isKnown key = false) :
    assign key header mapping = .error (.unknownAttribute key) := by
  simp [assign, unknown]

/-- A mapping stays proper when a key is assigned a header of the file, or none. -/
theorem Proper.assign {column : Option Text} (proper : Proper headers mapping)
    (shown : column.getD [] ≠ [] → column.getD [] ∈ headers)
    (assigned : Mapping.assign key column mapping = .ok next) : Proper headers next := by
  cases known : Attribute.isKnown key with
  | false => simp [assign_unknown column mapping known] at assigned
  | true =>
    match column with
    | none | some [] =>
      obtain rfl : Entries.erase key mapping = next := by simpa [Mapping.assign, known] using assigned
      exact ⟨proper.toExclusive.sublist List.filter_sublist,
        fun entry there => proper.fits entry (List.mem_filter.mp there).1⟩
    | some (c :: rest) =>
      have here : c :: rest ∈ headers := shown (List.cons_ne_nil c rest)
      obtain ⟨next', assigned', result⟩ :=
        proper.toExclusive.assign known (List.cons_ne_nil c rest)
      obtain rfl : next' = next := Except.ok.inj (assigned'.symm.trans assigned)
      obtain rfl := Except.ok.inj (assigned'.symm.trans (assign_eq known (List.cons_ne_nil c rest)))
      refine ⟨result.exclusive, fun entry there => ?_⟩
      obtain rfl | kept := Entries.mem_put there
      · exact ⟨known, List.cons_ne_nil c rest, here⟩
      · exact proper.fits entry (List.mem_filter.mp kept).1

end Mapping
end Intake
