import Intake.Contact
import Intake.Proofs.Json.Limits

/-! What becomes of the cells of a row. A cell is coerced, or it becomes null; only an integer with too
many digits, in a cell that is read as JSON, is neither. The contact of a row has the value of each
of its mapped cells, and it fails only by such an integer. -/
namespace Intake

namespace Kind
variable {dates later : Dates}

theorem coerce_error_iff {kind : Kind} {t : Text} {error : OversizedInteger} :
    kind.coerce dates t = .error error ↔ kind = .json ∧ Json.read t = .error (.digits error.digits) := by
  cases kind with
  | string | number | date => simp [coerce]
  | json =>
    simp only [coerce, coerceJson, true_and]
    cases error
    split <;> simp_all

inductive Parsed (kind : Kind) (dates : Dates) (raw : Text) : Except OversizedInteger Json → Prop
  | blank (blank : raw.strip = []) : Parsed kind dates raw (.ok .null)
  | value {value : Json} (coerced : kind.coerce dates raw.strip = .ok (.value value)) :
      Parsed kind dates raw (.ok value)
  | rejected {why : Rejection} (coerced : kind.coerce dates raw.strip = .ok (.rejected why)) :
      Parsed kind dates raw (.ok .null)
  | oversized {error : OversizedInteger} (json : kind = .json)
      (beyond : Json.digitLimit < error.digits) (has : raw.HasRun error.digits) :
      Parsed kind dates raw (.error error)

theorem parsed (kind : Kind) (dates : Dates) (raw : Text) :
    kind.Parsed dates raw (kind.parse dates raw) := by
  unfold parse readCell
  dsimp only
  split
  · rename_i blank
    exact .blank (List.isEmpty_iff.mp blank)
  · split
    · rename_i error failed
      obtain ⟨json, failed⟩ := coerce_error_iff.mp failed
      obtain ⟨beyond, has⟩ := Json.read_digits failed
      exact .oversized json beyond (has.mono raw.strip_infix)
    · rename_i value coerced
      exact .value coerced
    · rename_i why coerced
      exact .rejected coerced

/-- Whether a cell has a value does not depend on the dates. -/
theorem parse_error_iff {kind : Kind} {raw : Text} {error : OversizedInteger} :
    kind.parse dates raw = .error error ↔ kind.parse later raw = .error error := by
  have either (dates : Dates) : kind.parse dates raw = .error error ↔
      raw.strip ≠ [] ∧ kind = .json ∧ Json.read raw.strip = .error (.digits error.digits) := by
    rw [← @coerce_error_iff dates, parse, readCell]
    cases blank : raw.strip with
    | nil => simp [Except.map]
    | cons c rest =>
      cases coerced : kind.coerce dates (c :: rest) with
      | error error => simp [Except.map]
      | ok coercion => cases coercion <;> simp [Except.map]
  rw [either, either]

theorem parse_of_ne_date {kind : Kind} (other : kind ≠ .date) (raw : Text) :
    kind.parse dates raw = kind.parse later raw := by
  cases kind with
  | date => exact absurd rfl other
  | string | number | json => rfl

private theorem isBlank_of_digit {c : CodePoint} (digit : c.asciiDigit?.isSome) :
    c.isBlank = false := by
  have range : 0x30 ≤ c.value ∧ c.value ≤ 0x39 := by
    by_contra outside
    simp [CodePoint.asciiDigit?, outside] at digit
  have low : c.value < 0x80 := by omega
  simp only [CodePoint.isBlank, low, if_true, Bool.or_eq_false_iff, beq_eq_false_iff_ne,
    Bool.and_eq_false_iff, decide_eq_false_iff_not]
  omega

private theorem strip_ofNat (n : Nat) : (Text.ofNat n).strip = Text.ofNat n := by
  have shown : ∀ c ∈ Text.ofNat n, c.isBlank = false := by
    intro point here
    obtain ⟨c, digit, rfl⟩ := List.mem_map.mp here
    have digit := Nat.isDigit_of_mem_toDigits (by decide) (by decide) digit
    exact isBlank_of_digit (by rw [Json.asciiDigit?_scalar digit, Option.isSome_some])
  have kept {t : Text} (shown : ∀ c ∈ t, c.isBlank = false) : t.dropWhile CodePoint.isBlank = t := by
    cases t with
    | nil => rfl
    | cons c rest => simp [shown c List.mem_cons_self]
  rw [Text.strip, Text.stripEnd, kept shown, kept (by simpa using shown), List.reverse_reverse]

/-- A cell that is read as JSON and is an integer with too many digits has no value. -/
theorem parse_overlong {n : Nat} (long : 10 ^ Json.digitLimit ≤ n) :
    Kind.json.parse dates (Text.ofNat n) = .error ⟨(Json.digitValues n).length⟩ := by
  have some : Text.ofNat n ≠ [] := by
    obtain ⟨c, rest, same, _⟩ := Json.ofNat_head n
    simp [same]
  simp [parse, readCell, strip_ofNat, some, coerce, coerceJson, Json.read_overlong long, Except.map]

end Kind

namespace Contact
variable {dates later : Dates} {file : ContactFile} {row : List Text} {mapping : Mapping} {contact : Contact}
  {key header cell : Text}

def cell? (file : ContactFile) (row : List Text) (header : Text) : Option Text :=
  (file.column? header).bind (row[·]?)

theorem build_cons (dates : Dates) (file : ContactFile) (row : List Text) (key header : Text) (rest : Mapping) :
    build dates file row ((key, header) :: rest) =
      match cell? file row header with
      | none => build dates file row rest
      | some cell => do
        let value ← (Attribute.kindOf key).parse dates cell
        let contact ← build dates file row rest
        return (key, value) :: contact := by
  simp only [build, read, cell?]
  cases (file.column? header).bind (row[·]?) with
  | none => rfl
  | some cell =>
    cases value : (Attribute.kindOf key).readCell dates cell with
    | error error => simp [Kind.parse, value, Except.map, bind, Except.bind]
    | ok result =>
      cases (read dates file row rest).2 <;>
        simp [Kind.parse, value, Except.map, bind, Except.bind, pure, Except.pure]

/-- The contact of a row fails only by one of its mapped cells. -/
theorem build_error {error : OversizedInteger} (failed : build dates file row mapping = .error error) :
    ∃ key header cell, (key, header) ∈ mapping ∧ cell? file row header = some cell ∧
      (Attribute.kindOf key).parse dates cell = .error error := by
  induction mapping with
  | nil => cases failed
  | cons entry rest ih =>
    obtain ⟨key, header⟩ := entry
    have later (failed : build dates file row rest = .error error) :
        ∃ key' header' cell, (key', header') ∈ (key, header) :: rest ∧
          cell? file row header' = some cell ∧
          (Attribute.kindOf key').parse dates cell = .error error := by
      obtain ⟨key', header', cell, mapped, found, parsed⟩ := ih failed
      exact ⟨key', header', cell, List.mem_cons_of_mem _ mapped, found, parsed⟩
    rw [build_cons] at failed
    cases found : cell? file row header with
    | none =>
      rw [found] at failed
      exact later failed
    | some cell =>
      rw [found] at failed
      cases parsed : (Attribute.kindOf key).parse dates cell with
      | error error' =>
        simp only [parsed, bind, Except.bind, Except.error.injEq] at failed
        subst failed
        exact ⟨key, header, cell, List.mem_cons_self, found, parsed⟩
      | ok value =>
        cases rest' : build dates file row rest with
        | error error' =>
          simp only [parsed, rest', bind, Except.bind, Except.error.injEq] at failed
          subst failed
          exact later rest'
        | ok contact => simp [parsed, rest', bind, Except.bind, pure, Except.pure] at failed

/-- Whether a row has a contact does not depend on the dates. -/
theorem build_error_iff {error : OversizedInteger} :
    build dates file row mapping = .error error ↔ build later file row mapping = .error error := by
  induction mapping with
  | nil => rfl
  | cons entry rest ih =>
    obtain ⟨key, header⟩ := entry
    simp only [build_cons]
    cases cell? file row header with
    | none => exact ih
    | some cell =>
      have same {error : OversizedInteger} :=
        @Kind.parse_error_iff dates later (Attribute.kindOf key) cell error
      dsimp only
      cases here : (Attribute.kindOf key).parse dates cell with
      | error other => simp [same.mp here, bind, Except.bind]
      | ok value =>
        cases there : (Attribute.kindOf key).parse later cell with
        | error other => cases here.symm.trans (same.mpr there)
        | ok value' =>
          cases first : build dates file row rest <;> cases second : build later file row rest <;>
            simp_all [bind, Except.bind, pure, Except.pure]

theorem exists_build (built : build dates file row mapping = .ok contact) (later : Dates) :
    ∃ contact, build later file row mapping = .ok contact := by
  cases other : build later file row mapping with
  | ok contact => exact ⟨contact, rfl⟩
  | error error => cases built.symm.trans (build_error_iff.mp other)

/-- A row none of whose cells is mapped as a date has one contact. -/
theorem build_of_dateless (dateless : ∀ entry ∈ mapping, Attribute.kindOf entry.1 ≠ .date)
    (dates later : Dates) : build dates file row mapping = build later file row mapping := by
  induction mapping with
  | nil => rfl
  | cons entry rest ih =>
    obtain ⟨key, header⟩ := entry
    obtain ⟨other, others⟩ := List.forall_mem_cons.mp dateless
    have same (cell : Text) := @Kind.parse_of_ne_date dates later _ other cell
    simp only [build_cons, ih others, same]

/-- What the contact of a row gives to a key is the value of a cell that is mapped to it, and it
gives one value to each key. -/
theorem of_mem_build (built : build dates file row mapping = .ok contact) :
    (Entries.keys contact).Sublist (Entries.keys mapping) ∧
      ∀ entry ∈ contact, ∃ header cell, (entry.1, header) ∈ mapping ∧
        cell? file row header = some cell ∧
        (Attribute.kindOf entry.1).parse dates cell = .ok entry.2 := by
  induction mapping generalizing contact with
  | nil =>
    cases built
    exact ⟨List.Sublist.slnil, by simp⟩
  | cons mapped rest ih =>
    obtain ⟨key, header⟩ := mapped
    rw [build_cons] at built
    have later {others : Contact} (built : build dates file row rest = .ok others) :
        ∀ entry ∈ others, ∃ header' cell, (entry.1, header') ∈ (key, header) :: rest ∧
          cell? file row header' = some cell ∧
          (Attribute.kindOf entry.1).parse dates cell = .ok entry.2 := by
      intro entry here
      obtain ⟨header', cell, mapped, found, parsed⟩ := (ih built).2 entry here
      exact ⟨header', cell, List.mem_cons_of_mem _ mapped, found, parsed⟩
    cases found : cell? file row header with
    | none =>
      rw [found] at built
      exact ⟨(ih built).1.cons key, later built⟩
    | some cell =>
      rw [found] at built
      cases parsed : (Attribute.kindOf key).parse dates cell with
      | error error => simp [parsed, bind, Except.bind] at built
      | ok value =>
        cases rest' : build dates file row rest with
        | error error => simp [parsed, rest', bind, Except.bind] at built
        | ok others =>
          simp only [parsed, rest', bind, Except.bind, pure, Except.pure, Except.ok.injEq] at built
          subst built
          refine ⟨(ih rest').1.cons_cons key, List.forall_mem_cons.mpr ⟨?_, later rest'⟩⟩
          exact ⟨header, cell, List.mem_cons_self, found, parsed⟩

/-- Each mapped cell of a row has a value, which the contact of the row gives to its key. -/
theorem mem_build (built : build dates file row mapping = .ok contact) (mapped : (key, header) ∈ mapping)
    (found : cell? file row header = some cell) :
    ∃ value, (Attribute.kindOf key).parse dates cell = .ok value ∧ (key, value) ∈ contact := by
  induction mapping generalizing contact with
  | nil => cases mapped
  | cons entry rest ih =>
    obtain ⟨key', header'⟩ := entry
    rw [build_cons] at built
    cases found' : cell? file row header' with
    | none =>
      rw [found'] at built
      obtain same | mapped := List.mem_cons.mp mapped
      · cases same
        simp [found] at found'
      · exact ih built mapped
    | some cell' =>
      rw [found'] at built
      cases parsed : (Attribute.kindOf key').parse dates cell' with
      | error error => simp [parsed, bind, Except.bind] at built
      | ok value =>
        cases rest' : build dates file row rest with
        | error error => simp [parsed, rest', bind, Except.bind] at built
        | ok others =>
          simp only [parsed, rest', bind, Except.bind, pure, Except.pure, Except.ok.injEq] at built
          subst built
          obtain same | mapped := List.mem_cons.mp mapped
          · cases same
            cases found.symm.trans found'
            exact ⟨value, parsed, List.mem_cons_self⟩
          · obtain ⟨value', parsed', here⟩ := ih rest' mapped
            exact ⟨value', parsed', List.mem_cons_of_mem _ here⟩

end Contact
end Intake
