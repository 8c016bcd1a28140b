import Intake.Mapping
import Intake.Proofs.Entries
import Intake.Proofs.Json.RoundTrip
import Mathlib.Data.List.Perm.Basic

/-! The part of a mapping that fits a file fits it as a whole: taking that part again drops nothing,
and it is as good for a run as the mapping that it was taken from. Which entries are kept depends on
their order alone: each that fits on its own, unless one before it has its header. -/
namespace Intake

namespace Attribute

theorem isJoined_of_isKnown {key : Text} (known : isKnown key = true) : key.isJoined = true := by
  have all : ∀ a ∈ catalogue, a.key.isJoined = true := by decide +kernel
  obtain ⟨a, found⟩ := Option.isSome_iff_exists.mp known
  obtain rfl : a.key = key := by simpa using List.find?_some found
  exact all a (List.mem_of_find?_eq_some found)

theorem isKnown_email : isKnown emailKey = true := by decide +kernel

end Attribute

namespace Mapping
variable {headers : List Text} {mapping kept : Mapping} {dropped : List Text}

def Fits (headers : List Text) (entry : Text × Text) : Prop :=
  Attribute.isKnown entry.1 = true ∧ entry.2 ≠ [] ∧ entry.2 ∈ headers

structure Fitting (headers : List Text) (mapping : Mapping) : Prop where
  fits : ∀ entry ∈ mapping, Fits headers entry
  once : (Entries.values mapping).Nodup
  first : emailFirst mapping = mapping

private def place (headers : List Text) (result : Mapping × List Text) (entry : Text × Text) :
    Mapping × List Text :=
  if keeps headers result.1 entry then (result.1 ++ [entry], result.2)
  else (result.1, result.2 ++ [entry.1])

private theorem keeps_iff {entry : Text × Text} :
    keeps headers kept entry = true ↔ Fits headers entry ∧ entry.2 ∉ Entries.values kept := by
  simp [keeps, Fits, and_assoc]

private theorem place_grows (entries : Mapping) (result : Mapping × List Text) :
    ∃ more, (entries.foldl (place headers) result).1 = result.1 ++ more ∧ more.Sublist entries := by
  induction entries generalizing result with
  | nil => exact ⟨[], by simp⟩
  | cons entry rest ih =>
    obtain ⟨more, grown, part⟩ := ih (place headers result entry)
    rw [List.foldl_cons, grown]
    unfold place
    split
    · exact ⟨entry :: more, by simp, part.cons_cons entry⟩
    · exact ⟨more, rfl, part.cons entry⟩

private theorem place_fits {result : Mapping × List Text}
    (fits : ∀ entry ∈ result.1, Fits headers entry) (once : (Entries.values result.1).Nodup)
    (entry : Text × Text) : (∀ other ∈ (place headers result entry).1, Fits headers other) ∧
      (Entries.values (place headers result entry).1).Nodup := by
  unfold place
  split
  · rename_i kept
    obtain ⟨fit, absent⟩ := keeps_iff.mp kept
    refine ⟨fun other here => ?_, ?_⟩
    · obtain old | new := List.mem_append.mp here
      · exact fits other old
      · exact List.mem_singleton.mp new ▸ fit
    · rw [Entries.values, List.map_append, List.nodup_append]
      refine ⟨once, by simp, ?_⟩
      rintro value here _ same rfl
      simp only [List.map_cons, List.map_nil, List.mem_singleton] at same
      exact absent (same ▸ here)
  · exact ⟨fits, once⟩

private theorem place_fold (entries before : Mapping) (missing : List Text)
    (fits : ∀ entry ∈ before, Fits headers entry) (once : (Entries.values before).Nodup) :
    ∃ more, (entries.foldl (place headers) (before, missing)).1 = before ++ more ∧
      more.Sublist entries ∧ (∀ entry ∈ before ++ more, Fits headers entry) ∧
      (Entries.values (before ++ more)).Nodup := by
  obtain ⟨more, grown, part⟩ := place_grows entries (before, missing)
  refine ⟨more, grown, part, ?_⟩
  rw [← grown]
  exact List.foldlRecOn entries (place headers)
    (motive := fun result => (∀ entry ∈ result.1, Fits headers entry) ∧
      (Entries.values result.1).Nodup)
    ⟨fits, once⟩ fun _ ⟨fits, once⟩ entry _ => place_fits fits once entry

private theorem place_parts (entries : Mapping) (result : Mapping × List Text) :
    let placed := entries.foldl (place headers) result
    (Entries.keys placed.1 ++ placed.2).Perm
      (Entries.keys result.1 ++ result.2 ++ Entries.keys entries) := by
  intro placed
  induction entries generalizing result with
  | nil => simp [placed, Entries.keys]
  | cons entry rest ih =>
    have one : (Entries.keys (place headers result entry).1 ++ (place headers result entry).2).Perm
        (Entries.keys result.1 ++ result.2 ++ [entry.1]) := by
      unfold place
      split
      · simpa [Entries.keys] using
          (@List.perm_append_comm _ [entry.1] result.2).append_left (Entries.keys result.1)
      · simp
    exact (ih _).trans (by simpa [Entries.keys] using one.append_right (Entries.keys rest))

private theorem place_dropped (entries : Mapping) (result : Mapping × List Text) {key : Text}
    (gone : key ∈ (entries.foldl (place headers) result).2) :
    key ∈ result.2 ∨ ∃ header, (key, header) ∈ entries ∧ (Fits headers (key, header) →
      header ∈ Entries.values (entries.foldl (place headers) result).1) := by
  induction entries generalizing result with
  | nil => exact .inl gone
  | cons entry rest ih =>
    obtain here | ⟨header, later, taken⟩ := ih _ gone
    · unfold place at here
      split at here
      · exact .inl here
      · rename_i unkept
        obtain old | new := List.mem_append.mp here
        · exact .inl old
        · -- What an entry is dropped for stays true, as no kept entry is taken back.
          obtain rfl := List.mem_singleton.mp new
          refine .inr ⟨entry.2, List.mem_cons_self, fun fits => ?_⟩
          have taken : entry.2 ∈ Entries.values result.1 := by
            simpa [keeps_iff, fits] using unkept
          obtain ⟨more, grown, _⟩ := @place_grows headers (entry :: rest) result
          rw [grown, Entries.values, List.map_append]
          exact List.mem_append_left _ taken
    · exact .inr ⟨header, List.mem_cons_of_mem _ later, taken⟩

private theorem place_fitting (entries before : Mapping) (missing : List Text)
    (fits : ∀ entry ∈ entries, Fits headers entry)
    (once : (Entries.values (before ++ entries)).Nodup) :
    entries.foldl (place headers) (before, missing) = (before ++ entries, missing) := by
  induction entries generalizing before with
  | nil => simp
  | cons entry rest ih =>
    have absent : entry.2 ∉ Entries.values before := by
      rw [Entries.values, List.map_append, List.nodup_append] at once
      exact fun here => once.2.2 _ here _ List.mem_cons_self rfl
    have keep := keeps_iff.mpr ⟨fits entry List.mem_cons_self, absent⟩
    rw [List.foldl_cons, place, if_pos keep,
      ih (before ++ [entry]) (fun other here => fits other (List.mem_cons_of_mem _ here))
        (by simpa using once)]
    simp

theorem emailFirst_of_sublist (part : kept.Sublist (emailFirst mapping)) :
    emailFirst kept = kept := by
  obtain ⟨emails, others, rfl, first, second⟩ := List.sublist_append_iff.mp part
  have mapped : ∀ entry ∈ emails, entry.1 = Attribute.emailKey := fun entry here => by
    simpa using (List.mem_filter.mp (first.subset here)).2
  have unmapped : ∀ entry ∈ others, entry.1 ≠ Attribute.emailKey := fun entry here => by
    simpa using (List.mem_filter.mp (second.subset here)).2
  have all : emails.filter (fun entry => entry.1 = Attribute.emailKey) = emails :=
    List.filter_eq_self.mpr fun entry here => by simpa using mapped entry here
  have none : emails.filter (fun entry => entry.1 ≠ Attribute.emailKey) = [] :=
    List.filter_eq_nil_iff.mpr fun entry here => by simpa using mapped entry here
  have all' : others.filter (fun entry => entry.1 ≠ Attribute.emailKey) = others :=
    List.filter_eq_self.mpr fun entry here => by simpa using unmapped entry here
  have none' : others.filter (fun entry => entry.1 = Attribute.emailKey) = [] :=
    List.filter_eq_nil_iff.mpr fun entry here => by simpa using unmapped entry here
  rw [emailFirst, List.filter_append, List.filter_append, all, none, all', none']
  simp

private theorem restrict_eq (headers : List Text) (mapping : Mapping) :
    restrict headers mapping = (emailFirst mapping).foldl (place headers) ([], []) := rfl

/-- The entries of a mapping that are kept fit together, in the order that a run gives them. -/
theorem restrict_fitting (headers : List Text) (mapping : Mapping) :
    Fitting headers (restrict headers mapping).1 ∧
      (restrict headers mapping).1.Sublist (emailFirst mapping) := by
  obtain ⟨more, result, part, fits, once⟩ :=
    @place_fold headers (emailFirst mapping) [] [] (by simp) List.nodup_nil
  rw [restrict_eq, result]
  exact ⟨⟨fits, once, emailFirst_of_sublist part⟩, part⟩

/-- Of entries that fit together none is dropped. -/
theorem Fitting.restrict (fitting : Fitting headers mapping) :
    Mapping.restrict headers mapping = (mapping, []) := by
  rw [restrict_eq, fitting.first]
  exact place_fitting mapping [] [] fitting.fits fitting.once

theorem emailFirst_perm (mapping : Mapping) : (emailFirst mapping).Perm mapping := by
  simpa [emailFirst] using
    List.filter_append_perm (fun entry : Text × Text => entry.1 = Attribute.emailKey) mapping

/-- The keys that are kept and those that are dropped are the keys of the mapping. -/
theorem restrict_parts (headers : List Text) (mapping : Mapping) :
    (Entries.keys (restrict headers mapping).1 ++ (restrict headers mapping).2).Perm
      (Entries.keys mapping) := by
  have parts := @place_parts headers (emailFirst mapping) ([], [])
  exact parts.trans ((emailFirst_perm mapping).map Prod.fst)

/-- A key is dropped only if its entry does not fit the headers on its own or its header went to
another entry. -/
theorem restrict_dropped {key : Text} (gone : key ∈ (restrict headers mapping).2) :
    ∃ header, (key, header) ∈ mapping ∧ (Fits headers (key, header) →
      header ∈ Entries.values (restrict headers mapping).1) := by
  obtain here | ⟨header, there, taken⟩ := @place_dropped headers (emailFirst mapping) ([], []) _ gone
  · cases here
  · exact ⟨header, (emailFirst_perm mapping).mem_iff.mp there, taken⟩

/-- A mapping can be used for a run if its email has a header of the file. -/
theorem isRunnable_iff : isRunnable headers mapping = true ↔
    ∃ header, Entries.get? Attribute.emailKey mapping = some header ∧ header ≠ [] ∧
      header ∈ headers := by
  unfold isRunnable
  cases Entries.get? Attribute.emailKey mapping <;> simp

theorem isRunnable_eq_false_iff : isRunnable headers mapping = false ↔
    Entries.get? Attribute.emailKey mapping = none ∨
      Entries.get? Attribute.emailKey mapping = some [] ∨
      ∃ header, Entries.get? Attribute.emailKey mapping = some header ∧ header ∉ headers := by
  unfold isRunnable
  cases Entries.get? Attribute.emailKey mapping <;> simp [or_iff_not_imp_left]

private theorem fits_email {header : Text} (shown : header ≠ []) (column : header ∈ headers) :
    Fits headers (Attribute.emailKey, header) :=
  ⟨Attribute.isKnown_email, shown, column⟩

/-- A mapping passes the check exactly if it can be used, and comes out of it as what fits. -/
theorem validate_eq_ok_iff {result : Mapping × List Text} :
    validate headers mapping = .ok result ↔
      isRunnable headers mapping = true ∧ result = restrict headers mapping := by
  unfold validate
  split
  · rename_i unmapped
    simp [isRunnable, unmapped]
  · rename_i blank
    simp [isRunnable, blank]
  · split_ifs with runnable
    · simp [runnable, eq_comm]
    · simp [runnable]

theorem Fitting.validate (fitting : Fitting headers mapping)
    (email : (Entries.get? Attribute.emailKey mapping).isSome) :
    Mapping.validate headers mapping = .ok (mapping, []) := by
  obtain ⟨header, mapped⟩ := Option.isSome_iff_exists.mp email
  obtain ⟨_, shown, column⟩ := fitting.fits _ (Entries.mem_of_get? mapped)
  exact validate_eq_ok_iff.mpr ⟨isRunnable_iff.mpr ⟨header, mapped, shown, column⟩,
    fitting.restrict.symm⟩

theorem nodup_restrict (distinct : (Entries.keys mapping).Nodup) :
    (Entries.keys (restrict headers mapping).1).Nodup := by
  have same : (Entries.keys (emailFirst mapping)).Nodup :=
    ((emailFirst_perm mapping).map Prod.fst).nodup_iff.mpr distinct
  exact same.sublist ((restrict_fitting headers mapping).2.map Prod.fst)

theorem mem_of_mem_restrict {entry : Text × Text} (here : entry ∈ (restrict headers mapping).1) :
    entry ∈ mapping := by
  have first : entry ∈ emailFirst mapping := (restrict_fitting headers mapping).2.subset here
  obtain email | other := List.mem_append.mp first
  · exact (List.mem_filter.mp email).1
  · exact (List.mem_filter.mp other).1

private theorem filter_of_get? {key header : Text} (mapped : Entries.get? key mapping = some header) :
    ∃ rest, mapping.filter (fun entry => entry.1 = key) = (key, header) :: rest := by
  induction mapping with
  | nil => simp [Entries.get?] at mapped
  | cons entry rest ih =>
    obtain ⟨other, column⟩ := entry
    by_cases same : other = key
    · subst same
      simp only [Entries.get?, if_pos, Option.some.injEq] at mapped
      exact ⟨rest.filter fun entry => entry.1 = other, by simp [mapped]⟩
    · simp only [Entries.get?, if_neg same] at mapped
      simpa [same] using ih mapped

private theorem get?_restrict {header : Text}
    (mapped : Entries.get? Attribute.emailKey mapping = some header)
    (fit : Fits headers (Attribute.emailKey, header)) :
    Entries.get? Attribute.emailKey (restrict headers mapping).1 = some header := by
  obtain ⟨rest, emails⟩ := filter_of_get? mapped
  have keep : keeps headers [] (Attribute.emailKey, header) = true :=
    keeps_iff.mpr ⟨fit, List.not_mem_nil⟩
  rw [restrict_eq, emailFirst, emails, List.cons_append, List.foldl_cons, place, if_pos keep]
  obtain ⟨more, result, _⟩ := @place_fold headers
    (rest ++ mapping.filter fun entry => entry.1 ≠ Attribute.emailKey)
    [(Attribute.emailKey, header)] [] (by simpa using fit) (by simp [Entries.values])
  rw [List.nil_append, result]
  rfl

theorem validate_restrict (valid : validate headers mapping = .ok (kept, dropped)) :
    restrict headers mapping = (kept, dropped) :=
  (validate_eq_ok_iff.mp valid).2.symm

/-- A mapping that was checked passes the check again, and nothing more of it is dropped. -/
theorem validate_validated (valid : validate headers mapping = .ok (kept, dropped)) :
    Fitting headers kept ∧ (Entries.get? Attribute.emailKey kept).isSome ∧
      validate headers kept = .ok (kept, []) := by
  obtain ⟨runnable, same⟩ := validate_eq_ok_iff.mp valid
  obtain ⟨header, mapped, shown, column⟩ := isRunnable_iff.mp runnable
  have fitting := (restrict_fitting headers mapping).1
  have again := get?_restrict mapped (fits_email shown column)
  rw [← same] at fitting again
  exact ⟨fitting, by simp [again], fitting.validate (by simp [again])⟩

private theorem restrict_split {before after : Mapping} {entry : Text × Text}
    (split : emailFirst mapping = before ++ entry :: after) :
    ∃ earlier later, (restrict headers mapping).1
        = earlier ++ (if keeps headers earlier entry then [entry] else []) ++ later ∧
      earlier.Sublist before ∧ later.Sublist after := by
  obtain ⟨earlier, same, part⟩ := @place_grows headers before ([], [])
  obtain ⟨later, grown, part'⟩ :=
    @place_grows headers after (place headers (before.foldl (place headers) ([], [])) entry)
  have kept : (before.foldl (place headers) ([], [])).1 = earlier := by simpa using same
  refine ⟨earlier, later, ?_, part, part'⟩
  rw [restrict_eq, split, List.foldl_append, List.foldl_cons, grown, ← kept]
  unfold place
  split <;> simp

/-- An entry is kept exactly if it fits on its own and no entry kept before it has its header. -/
theorem mem_restrict_iff (distinct : (Entries.keys mapping).Nodup) {before after : Mapping}
    {entry : Text × Text} (split : emailFirst mapping = before ++ entry :: after) :
    entry ∈ (restrict headers mapping).1 ↔ Fits headers entry ∧
      ∀ earlier ∈ before, earlier ∈ (restrict headers mapping).1 → earlier.2 ≠ entry.2 := by
  have once : (emailFirst mapping).Nodup :=
    (emailFirst_perm mapping).nodup_iff.mpr (List.Nodup.of_map Prod.fst distinct)
  obtain ⟨kept, later, same, part, part'⟩ := @restrict_split headers mapping _ _ _ split
  rw [split, List.nodup_append, List.nodup_cons] at once
  obtain ⟨_, ⟨unrepeated, _⟩, apart⟩ := once
  have unkept : entry ∉ kept := fun here => apart _ (part.subset here) _ List.mem_cons_self rfl
  have unlater : entry ∉ later := fun here => unrepeated (part'.subset here)
  rw [same]
  split_ifs with fit
  · obtain ⟨fits, unused⟩ := keeps_iff.mp fit
    refine iff_of_true (by simp) ⟨fits, fun earlier old here taken => ?_⟩
    have old : earlier ∈ kept := by
      simp only [List.append_assoc, List.mem_append, List.mem_singleton] at here
      obtain here | rfl | here := here
      · exact here
      · exact absurd rfl (apart _ old _ List.mem_cons_self)
      · exact absurd rfl (apart _ old _ (List.mem_cons_of_mem _ (part'.subset here)))
    exact unused (taken ▸ List.mem_map_of_mem old)
  · refine iff_of_false (by simp [unkept, unlater]) fun ⟨fits, unused⟩ => ?_
    have taken : entry.2 ∈ Entries.values kept := by simpa [keeps_iff, fits] using fit
    obtain ⟨earlier, here, header⟩ := List.mem_map.mp taken
    exact unused earlier (part.subset here) (by simp [here]) header

/-- The email is kept exactly if the mapping can be used. -/
theorem email_mem_restrict_iff (distinct : (Entries.keys mapping).Nodup) :
    Attribute.emailKey ∈ Entries.keys (restrict headers mapping).1 ↔
      isRunnable headers mapping = true := by
  rw [isRunnable_iff, ← Entries.isSome_get?, Option.isSome_iff_exists]
  constructor
  · rintro ⟨header, kept⟩
    have here := Entries.mem_of_get? kept
    obtain ⟨_, shown, column⟩ := (restrict_fitting headers mapping).1.fits _ here
    exact ⟨header, (Entries.get?_eq_some distinct).mpr (mem_of_mem_restrict here), shown, column⟩
  · rintro ⟨header, mapped, shown, column⟩
    exact ⟨header, get?_restrict mapped (fits_email shown column)⟩

/-- What of a mapping fits a file, and what of it is dropped. Each key is one or the other. The
entries are scanned with the email first, and an entry is kept exactly if it fits on its own and no
entry kept before it has its header, so that the email is kept exactly if the mapping can be used.
What was kept is kept as it is when it is scanned again. A mapping that can be used, and no other,
passes the check, and comes out of it as what is kept, with the header that the email had. -/
theorem restrict_exact (headers : List Text) (mapping : Mapping)
    (distinct : (Entries.keys mapping).Nodup) :
    let kept := (restrict headers mapping).1
    let dropped := (restrict headers mapping).2
    ((Entries.keys kept ++ dropped).Perm (Entries.keys mapping) ∧
        (Entries.keys kept).Disjoint dropped) ∧
      (kept.Sublist (emailFirst mapping) ∧
        ∀ before entry after, emailFirst mapping = before ++ entry :: after →
          (entry ∈ kept ↔ (Attribute.isKnown entry.1 = true ∧ entry.2 ≠ [] ∧ entry.2 ∈ headers) ∧
            ∀ earlier ∈ before, earlier ∈ kept → earlier.2 ≠ entry.2)) ∧
      (Attribute.emailKey ∈ Entries.keys kept ↔ isRunnable headers mapping = true) ∧
      restrict headers kept = (kept, []) ∧
      (∀ result, validate headers mapping = .ok result ↔
        isRunnable headers mapping = true ∧ result = (kept, dropped)) ∧
      (isRunnable headers mapping = true →
        Entries.get? Attribute.emailKey kept = Entries.get? Attribute.emailKey mapping) := by
  have parts := restrict_parts headers mapping
  have apart := List.nodup_append.mp (parts.nodup_iff.mpr distinct)
  obtain ⟨fitting, scanned⟩ := restrict_fitting headers mapping
  refine ⟨⟨parts, fun key here gone => apart.2.2 key here key gone rfl⟩,
    ⟨scanned, fun _ _ _ split => mem_restrict_iff distinct split⟩,
    email_mem_restrict_iff distinct, fitting.restrict, fun _ => validate_eq_ok_iff,
    fun runnable => ?_⟩
  obtain ⟨header, mapped, shown, column⟩ := isRunnable_iff.mp runnable
  rw [mapped]
  exact get?_restrict mapped (fits_email shown column)

def sharingMapping : Mapping :=
  [("first_name", "mail"), (Attribute.emailKey, "mail"), ("phone", ""), ("nickname", "name"),
    ("last_name", "name"), ("state", "name")]

/-- The email takes its header from a key that was mapped onto it before. -/
theorem restrict_exact_sample :
    (Entries.keys sharingMapping).Nodup ∧
      (restrict ["mail", "name"] sharingMapping).1
        = ([(Attribute.emailKey, "mail"), ("last_name", "name")] : Mapping) ∧
      (restrict ["mail", "name"] sharingMapping).2 = ["first_name", "phone", "nickname", "state"] ∧
      (("first_name", "mail") : Text × Text) ∉ (restrict ["mail", "name"] sharingMapping).1 ∧
      Attribute.emailKey ∈ Entries.keys (restrict ["mail", "name"] sharingMapping).1 := by
  have distinct : (Entries.keys sharingMapping).Nodup := by decide +kernel
  obtain ⟨_, ⟨_, kept⟩, email, _⟩ := restrict_exact ["mail", "name"] sharingMapping distinct
  refine ⟨distinct, by decide +kernel, by decide +kernel, fun here => ?_, email.mpr (by decide +kernel)⟩
  have taken := ((kept [(Attribute.emailKey, "mail")] ("first_name", "mail") _ rfl).mp here).2
  exact taken _ List.mem_cons_self (by decide +kernel) rfl

end Mapping
end Intake
