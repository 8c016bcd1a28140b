import Intake.Proofs.Mapping.Exclusive
import Mathlib.Data.List.Pairwise

/-! The mapping that is suggested for a file gives each attribute the first header that names it. No
two attributes have a name in common, so that a header names one of them at most, and the suggestion
fits the file as a whole. -/
namespace Intake

namespace Attribute
variable {a b : Attribute} {header : Text}

def names (a : Attribute) : List Text := [a.key.lower, a.label.lower]

theorem isNamedBy_iff : isNamedBy header a = true ↔
    header.strip.lower ≠ [] ∧ header.strip.lower ∈ a.names := by
  simp [isNamedBy, names]

private theorem names_pairwise :
    catalogue.Pairwise fun a b => ∀ name ∈ a.names, name ∉ b.names := by
  decide +kernel

/-- No two attributes have a name in common. -/
theorem eq_of_names {name : Text} (here : a ∈ catalogue) (there : b ∈ catalogue)
    (named : name ∈ a.names) (named' : name ∈ b.names) : a = b := by
  by_contra other
  have symmetric : Std.Symm fun a b : Attribute => ∀ name ∈ a.names, name ∉ b.names :=
    ⟨fun _ _ apart name first second => apart name second first⟩
  exact names_pairwise.forall here there other name named named'

theorem eq_of_key (here : a ∈ catalogue) (there : b ∈ catalogue) (same : a.key = b.key) : a = b :=
  eq_of_names here there (List.mem_cons_self : a.key.lower ∈ a.names) (by simp [names, same])

theorem isKnown_iff {key : Text} : isKnown key = true ↔ ∃ a ∈ catalogue, a.key = key := by
  simp [isKnown, find?, List.find?_isSome]

/-- A header names an attribute of the catalogue exactly if it is one of the names of it. -/
theorem named?_eq_some_iff : named? header catalogue = some a ↔
    a ∈ catalogue ∧ isNamedBy header a = true := by
  constructor
  · intro named
    exact ⟨List.mem_of_find?_eq_some named, List.find?_some named⟩
  · rintro ⟨here, names⟩
    obtain ⟨b, named⟩ := Option.isSome_iff_exists.mp (List.find?_isSome.mpr ⟨a, here, names⟩)
    have other := isNamedBy_iff.mp (List.find?_some named)
    obtain rfl : a = b := eq_of_names here (List.mem_of_find?_eq_some named)
      (isNamedBy_iff.mp names).2 other.2
    exact named

end Attribute

namespace Mapping
variable {headers : List Text} {mapping : Mapping} {a : Attribute}

private def claim (mapping : Mapping) (header : Text) : Mapping :=
  match Attribute.named? header Attribute.catalogue with
  | some a => if (Entries.get? a.key mapping).isSome then mapping else mapping ++ [(a.key, header)]
  | none => mapping

private theorem get?_claim (here : a ∈ Attribute.catalogue) (mapping : Mapping) (header : Text) :
    Entries.get? a.key (claim mapping header) = (Entries.get? a.key mapping).or
      (if Attribute.named? header Attribute.catalogue = some a then some header else none) := by
  unfold claim
  cases named : Attribute.named? header Attribute.catalogue with
  | none => simp
  | some b =>
    have there := (Attribute.named?_eq_some_iff.mp named).1
    by_cases same : b = a
    · subst same
      cases held : Entries.get? b.key mapping <;> simp [held, Entries.get?_append, Entries.get?]
    · have apart : b.key ≠ a.key := fun key => same (Attribute.eq_of_key there here key)
      rw [if_neg (by simpa using same), Option.or_none]
      dsimp only
      split_ifs <;> simp [Entries.get?_append, Entries.get?, apart]

/-- An attribute of the catalogue has the first header that names it. -/
theorem get?_suggest (here : a ∈ Attribute.catalogue) (headers : List Text) :
    Entries.get? a.key (suggest headers)
      = headers.find? fun header => Attribute.named? header Attribute.catalogue = some a := by
  have scanned (rest : List Text) (mapping : Mapping) :
      Entries.get? a.key (rest.foldl claim mapping) = (Entries.get? a.key mapping).or
        (rest.find? fun header => Attribute.named? header Attribute.catalogue = some a) := by
    induction rest generalizing mapping with
    | nil => simp
    | cons header rest ih =>
      rw [List.foldl_cons, ih, get?_claim here, Option.or_assoc, List.find?_cons]
      split_ifs with named <;> simp [named]
  exact (scanned headers []).trans (by simp [Entries.get?])

/-- Of a mapping that is proper for a file nothing is dropped. -/
theorem Proper.restrict (proper : Proper headers mapping) :
    Mapping.restrict headers mapping = (emailFirst mapping, []) := by
  have order := emailFirst_perm mapping
  have again : emailFirst (emailFirst mapping) = emailFirst mapping :=
    emailFirst_of_sublist (List.Sublist.refl _)
  have fitting : Fitting headers (emailFirst mapping) :=
    ⟨fun entry here => proper.fits entry (order.mem_iff.mp here),
      (order.map Prod.snd).nodup_iff.mpr proper.once, again⟩
  have same : Mapping.restrict headers mapping = Mapping.restrict headers (emailFirst mapping) := by
    unfold Mapping.restrict
    rw [again]
  rw [same, fitting.restrict]

theorem Proper.isRunnable_iff (proper : Proper headers mapping) :
    isRunnable headers mapping = true ↔
      (Entries.get? Attribute.emailKey mapping).isSome = true := by
  rw [Mapping.isRunnable_iff, Option.isSome_iff_exists]
  exact exists_congr fun header =>
    and_iff_left_of_imp fun mapped => (proper.fits _ (Entries.mem_of_get? mapped)).2

/-- A suggestion can be used for a run exactly if a header names the email. -/
theorem isRunnable_suggest (headers : List Text) :
    isRunnable headers (suggest headers) = true ↔ ∃ header ∈ headers, ∃ a,
      Attribute.named? header Attribute.catalogue = some a ∧ a.key = Attribute.emailKey := by
  obtain ⟨email, here, key⟩ := Attribute.isKnown_iff.mp Attribute.isKnown_email
  rw [(proper_suggest headers).isRunnable_iff, ← key, get?_suggest here, List.find?_isSome]
  refine exists_congr fun header => and_congr_right fun _ => ?_
  rw [decide_eq_true_iff]
  constructor
  · exact fun named => ⟨email, named, rfl⟩
  · rintro ⟨a, named, same⟩
    rw [named, Attribute.eq_of_key (Attribute.named?_eq_some_iff.mp named).1 here same]

/-- The mapping that is suggested for a file. An attribute of the catalogue is mapped exactly if a
header names it, and onto the first header that does, in any case and with any blanks around the
name. Nothing else is mapped, no two keys have one header, and each header is one of the file as it
stands there. The file drops nothing of its suggestion, so that this can be used for a run exactly if
a header names the email. -/
theorem suggest_leftmost (headers : List Text) :
    (∀ a ∈ Attribute.catalogue,
        (∀ header, Attribute.named? header Attribute.catalogue = some a ↔
          header.strip.lower ≠ [] ∧
            (header.strip.lower = a.key.lower ∨ header.strip.lower = a.label.lower)) ∧
        Entries.get? a.key (suggest headers)
          = headers.find? fun header => Attribute.named? header Attribute.catalogue = some a) ∧
      (∀ key header, Entries.get? key (suggest headers) = some header →
        (∃ a ∈ Attribute.catalogue, a.key = key) ∧ header ∈ headers ∧
          ∀ other, Entries.get? other (suggest headers) = some header → other = key) ∧
      (Entries.keys (suggest headers)).Nodup ∧
      (restrict headers (suggest headers)).2 = [] ∧
      (isRunnable headers (suggest headers) = true ↔ ∃ header ∈ headers, ∃ a,
        Attribute.named? header Attribute.catalogue = some a ∧ a.key = Attribute.emailKey) := by
  have proper := proper_suggest headers
  refine ⟨fun a here => ⟨fun header => ?_, get?_suggest here headers⟩,
    fun key header mapped => ⟨?_, ?_, fun other mapped' => ?_⟩, proper.keys, ?_, ?_⟩
  · rw [Attribute.named?_eq_some_iff, and_iff_right here, Attribute.isNamedBy_iff]
    simp [Attribute.names]
  · exact Attribute.isKnown_iff.mp (proper.fits _ (Entries.mem_of_get? mapped)).1
  · exact (proper.fits _ (Entries.mem_of_get? mapped)).2.2
  · exact Option.some.inj ((proper.keyFor?_eq_some.mpr mapped').symm.trans
      (proper.keyFor?_eq_some.mpr mapped))
  · rw [proper.restrict]
  · exact isRunnable_suggest headers

def repeatingHeaders : List Text := ["E-mail", "", " EMAIL ", "First Name", "email", "Email"]

/-- The email is mapped onto the first header that names it, as it is written there. -/
theorem suggest_leftmost_sample :
    suggest repeatingHeaders
        = ([(Attribute.emailKey, " EMAIL "), ("first_name", "First Name")] : Mapping) ∧
      Attribute.named? " EMAIL " Attribute.catalogue
        = some ⟨Attribute.emailKey, "Email", .string, true⟩ ∧
      isRunnable repeatingHeaders (suggest repeatingHeaders) = true := by
  obtain ⟨all, _, _, _, runnable⟩ := suggest_leftmost repeatingHeaders
  have named := ((all ⟨Attribute.emailKey, "Email", .string, true⟩ List.mem_cons_self).1
    " EMAIL ").mpr (by decide +kernel)
  exact ⟨by decide +kernel, named, runnable.mpr ⟨" EMAIL ", by decide +kernel, _, named, rfl⟩⟩

end Mapping
end Intake
