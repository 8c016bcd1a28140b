import Intake.Proofs.Json.Plain

/-! What a value is made of, and which values can be written: those in which every number can be. -/
namespace Intake.Json

inductive Within (v : Json) : Json → Prop
  | self : Within v v
  | item {item : Json} {items : List Json} (listed : item ∈ items) (inside : Within v item) :
      Within v (list items)
  | entry {entry : Text × Json} {entries : List (Text × Json)} (listed : entry ∈ entries)
      (inside : Within v entry.2) : Within v (object entries)

variable {layout : Layout}

theorem Within.trans {u v j : Json} (inner : Within u v) (outer : Within v j) : Within u j := by
  induction outer with
  | self => exact inner
  | item listed _ ih => exact .item listed ih
  | entry listed _ ih => exact .entry listed ih

theorem forall_within_list {P : Json → Prop} {items : List Json} :
    (∀ v, Within v (list items) → P v) ↔
      P (list items) ∧ ∀ item ∈ items, ∀ v, Within v item → P v := by
  constructor
  · intro each
    exact ⟨each _ .self, fun item listed v inside => each v (.item listed inside)⟩
  · rintro ⟨whole, each⟩ v inside
    cases inside with
    | self => exact whole
    | item listed inside => exact each _ listed v inside

theorem forall_within_object {P : Json → Prop} {entries : List (Text × Json)} :
    (∀ v, Within v (object entries) → P v) ↔
      P (object entries) ∧ ∀ entry ∈ entries, ∀ v, Within v entry.2 → P v := by
  constructor
  · intro each
    exact ⟨each _ .self, fun entry listed v inside => each v (.entry listed inside)⟩
  · rintro ⟨whole, each⟩ v inside
    cases inside with
    | self => exact whole
    | entry listed inside => exact each _ listed v inside

/-- What is written for a value is written for each value in it. -/
theorem Within.written {v j : Json} (inside : Within v j) {t : Text}
    (written : write layout j = .ok t) : ∃ u, write layout v = .ok u := by
  induction inside generalizing t with
  | self => exact ⟨t, written⟩
  | @item item items listed inside ih =>
    obtain ⟨texts, parts, -⟩ := write_list written
    clear written
    induction items generalizing texts with
    | nil => cases listed
    | cons first rest rest_ih =>
      obtain ⟨u, others, here, later, _⟩ := writeItems_cons parts
      rcases List.mem_cons.mp listed with rfl | listed
      · exact ih here
      · exact rest_ih listed others later
  | @entry entry entries listed inside ih =>
    obtain ⟨texts, parts, -⟩ := write_object written
    clear written
    induction entries generalizing texts with
    | nil => cases listed
    | cons first rest rest_ih =>
      obtain ⟨key, value⟩ := first
      obtain ⟨u, others, here, later, _⟩ := writeEntries_cons parts
      rcases List.mem_cons.mp listed with rfl | listed
      · exact ih here
      · exact rest_ih listed others later

def Spells (layout : Layout) : Json → Prop
  | integer i => i.natAbs < 10 ^ digitLimit
  | real x => layout.unbounded = true ∨ x.isFinite = true
  | _ => True

mutual

private theorem write_of_within : ∀ (j : Json), (∀ v, Within v j → Spells layout v) →
    ∃ t, write layout j = .ok t
  | null, _ => ⟨_, rfl⟩
  | boolean _, _ => ⟨_, rfl⟩
  | integer i, each => by
    have short : ¬ 10 ^ digitLimit ≤ i.natAbs := Nat.not_le.mpr (each _ .self)
    exact ⟨Text.ofInt i, by rw [write, writeInteger, Nat.pow_eq, if_neg short]⟩
  | real x, each => by
    have spelled : layout.unbounded = true ∨ x.isFinite = true := each _ .self
    cases x with
    | finite negative significand exponent canonical => exact ⟨_, rfl⟩
    | nan | infinite _ =>
      rcases spelled with unbounded | finite
      · exact ⟨_, by rw [write, writeReal, if_pos unbounded]⟩
      · cases finite
  | text _, _ => ⟨_, rfl⟩
  | list items, each => by
    obtain ⟨texts, written⟩ := writeItems_of_within items fun item listed v inside =>
      each v (.item listed inside)
    exact ⟨_, by rw [write, written]; rfl⟩
  | object entries, each => by
    obtain ⟨texts, written⟩ := writeEntries_of_within entries fun entry listed v inside =>
      each v (.entry listed inside)
    exact ⟨_, by rw [write, written]; rfl⟩

private theorem writeItems_of_within : ∀ (items : List Json),
    (∀ item ∈ items, ∀ v, Within v item → Spells layout v) →
    ∃ texts, writeItems layout items = .ok texts
  | [], _ => ⟨_, rfl⟩
  | item :: items, each => by
    obtain ⟨t, first⟩ := write_of_within item (each item List.mem_cons_self)
    obtain ⟨texts, others⟩ := writeItems_of_within items fun other listed =>
      each other (List.mem_cons_of_mem _ listed)
    exact ⟨_, by rw [writeItems, first, others]; rfl⟩

private theorem writeEntries_of_within : ∀ (entries : List (Text × Json)),
    (∀ entry ∈ entries, ∀ v, Within v entry.2 → Spells layout v) →
    ∃ texts, writeEntries layout entries = .ok texts
  | [], _ => ⟨_, rfl⟩
  | (key, value) :: entries, each => by
    obtain ⟨t, first⟩ := write_of_within value (each (key, value) List.mem_cons_self)
    obtain ⟨texts, others⟩ := writeEntries_of_within entries fun other listed =>
      each other (List.mem_cons_of_mem _ listed)
    exact ⟨_, by rw [writeEntries, first, others]; rfl⟩

end

/-- A value can be written exactly if every number in it can be. -/
theorem exists_write_iff {j : Json} :
    (∃ t, write layout j = .ok t) ↔ ∀ v, Within v j → Spells layout v := by
  constructor
  · rintro ⟨t, written⟩ v inside
    obtain ⟨u, spelled⟩ := inside.written written
    cases v with
    | integer i =>
      rw [write] at spelled
      exact (ofInt_of_written spelled).1
    | real x =>
      cases x with
      | finite negative significand exponent canonical => exact .inr rfl
      | nan | infinite _ =>
        by_cases unbounded : layout.unbounded = true
        · exact .inl unbounded
        · simp only [write, writeReal, if_neg unbounded, reduceCtorEq] at spelled
    | null | boolean _ | text _ | list _ | object _ => trivial
  · exact write_of_within j

end Intake.Json
