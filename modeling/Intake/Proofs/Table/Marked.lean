import Intake.Proofs.Table.Spelled
import Intake.Text.Encoding
import Mathlib.Data.List.TakeWhile

/-! A byte-order mark in front of a text. It is a character like any other, which stands at the start of
the first line and, unless a quote follows it there, of the first field. Nothing else changes in the
records of the text. -/
namespace Intake.Table

open Machine (isLineEnd)

variable {separator : CodePoint} {field : Text}

def Machine.behind (m : Machine) (fields : List Text) : Machine :=
  { m with fields := m.fields ++ fields.reverse }

theorem step_behind (m : Machine) (fields : List Text) (c : CodePoint) :
    (m.behind fields).step separator c = (m.step separator c).map (·.behind fields) := by
  have add (state : State) : (m.behind fields).add c state = (m.add c state).map (·.behind fields) := by
    rw [Machine.add, Machine.add, show (m.behind fields).size = m.size from rfl]
    split_ifs <;> rfl
  have stepField : (m.behind fields).stepField separator c
      = (m.stepField separator c).map (·.behind fields) := by
    unfold Machine.stepField
    split_ifs
    · rfl
    · rfl
    · rfl
    · exact add .plain
  have state : (m.behind fields).state = m.state := rfl
  cases at_ : m.state <;> simp only [Machine.step, state, at_]
  case recordStart => split_ifs; exacts [rfl, stepField]
  case fieldStart => exact stepField
  case plain => split_ifs; exacts [rfl, rfl, add _]
  case quoted => split_ifs; exacts [rfl, add _]
  case quoteSeen => split_ifs; exacts [add _, rfl, rfl, rfl]
  case lineEnd => split_ifs <;> rfl

theorem takeLine_behind (m : Machine) (fields : List Text) (line : Text) :
    (m.behind fields).takeLine separator line = (m.takeLine separator line).map (·.behind fields) := by
  induction line generalizing m with
  | nil =>
    cases at_ : m.state <;>
      simp [Machine.takeLine, Machine.endLine, at_, Machine.behind, Machine.save]
  | cons c line ih =>
    rw [Machine.takeLine, Machine.takeLine, step_behind]
    cases m.step separator c with
    | none => rfl
    | some next => exact ih next

def led (fields : List Text) : List (Option Record) → List (Option Record)
  | some r :: rest => some { r with fields := fields ++ r.fields } :: rest
  | records => records

theorem records_behind (m : Machine) (fields : List Text) (first line : Nat) (texts : List Text) :
    records separator (m.behind fields) first line texts
      = led fields (records separator m first line texts) := by
  induction texts generalizing m line with
  | nil =>
    rw [records, records, show (m.behind fields).state = m.state from rfl]
    split_ifs <;> rfl
  | cons text texts ih =>
    rw [records, records, takeLine_behind]
    cases m.takeLine separator text with
    | none => rfl
    | some next =>
      simp only [Option.map_some, show (next.behind fields).state = next.state from rfl]
      split_ifs
      · simp [led, Machine.behind]
      · exact ih next (line + 1)

def afterField (separator : CodePoint) : Text → Option Machine
  | [] => some .start
  | c :: rest =>
    Machine.takeLine separator ⟨if c = separator then .fieldStart else .lineEnd, [], 0, []⟩ rest

def EndsField (separator : CodePoint) (text : Text) : Prop :=
  ∀ c ∈ text.head?, c = separator ∨ isLineEnd c = true

theorem takeLine_first (proper : Separates separator) (bare : Bare separator field) {rest : Text}
    (ended : EndsField separator rest) (shown : field = [] → rest.head? = some separator)
    (room : field.length ≤ fieldLimit) :
    Machine.start.takeLine separator (field ++ rest)
      = (afterField separator rest).map (·.behind [field]) := by
  have unquote := proper.unquote
  have inside := proper.inside
  cases field with
  | nil =>
    obtain ⟨more, rfl⟩ := List.head?_eq_some_iff.mp (shown rfl)
    have taken := @takeLine_behind separator ⟨.fieldStart, [], 0, []⟩ [[]] more
    rw [List.nil_append, Machine.takeLine]
    simp only [Machine.step, Machine.start, Machine.stepField, inside, Bool.false_eq_true, if_false,
      unquote, if_true, afterField]
    exact taken
  | cons c field =>
    have room : 1 + field.length ≤ fieldLimit := by simpa [Nat.add_comm] using room
    have steps : Machine.start.steps separator (c :: field) = _ := steps_bare (.inl rfl) bare room
    rw [takeLine_append, steps, Option.bind_some]
    cases rest with
    | nil =>
      simp [Machine.takeLine, Machine.endLine, Machine.save, afterField, Machine.behind, Machine.start]
    | cons d rest =>
      have taken := @takeLine_behind separator
        ⟨if d = separator then .fieldStart else .lineEnd, [], 0, []⟩ [c :: field] rest
      rw [Machine.takeLine, afterField, ← taken]
      rcases ended d rfl with rfl | ending
      · simp [Machine.step, inside, Machine.save, Machine.behind]
      · have other := (proper.not_end ending).2
        simp [Machine.step, ending, other, Machine.save, Machine.behind]

/-- What the reader makes of a first line and of all others, as far as it depends on how the first line
is taken. -/
theorem exists_after (separator : CodePoint) (taken : Option Machine) (first line : Nat)
    (texts : List Text) : ∃ after, ∀ (m : Machine) (text : Text) (fields : List Text),
    m.takeLine separator text = taken.map (·.behind fields) →
      records separator m first line (text :: texts) = led fields after := by
  cases taken with
  | none =>
    refine ⟨none :: records separator .start (line + 1) (line + 1) texts, fun m text fields same => ?_⟩
    rw [records, same]
    rfl
  | some next =>
    by_cases ended : next.state = .recordStart
    · refine ⟨some ⟨first, next.fields.reverse⟩
        :: records separator .start (line + 1) (line + 1) texts, fun m text fields same => ?_⟩
      rw [records, same]
      simp [Machine.behind, ended, led]
    · refine ⟨records separator next first (line + 1) texts, fun m text fields same => ?_⟩
      rw [records, same]
      simp only [Option.map_some, show (next.behind fields).state = next.state from rfl, if_neg ended]
      exact records_behind next fields first (line + 1) texts

def goesOn (separator c : CodePoint) : Bool := !isLineEnd c && c ≠ separator

theorem bare_takeWhile {line : Text} (unquoted : line.head? ≠ some (.scalar '"')) :
    Bare separator (line.takeWhile (goesOn separator)) := by
  refine ⟨fun quoted => ?_, fun c here => ?_⟩
  · cases line with
    | nil => cases quoted
    | cons c line =>
      rw [List.takeWhile_cons] at quoted
      split_ifs at quoted
      · exact unquoted quoted
      · cases quoted
  · simpa [goesOn] using List.mem_takeWhile_imp here

theorem endsField_dropWhile (line : Text) :
    EndsField separator (line.dropWhile (goesOn separator)) := by
  intro c here
  rw [← List.find?_not_eq_head?_dropWhile] at here
  have stops := List.find?_some here
  simp only [goesOn, Bool.not_eq_true', Bool.and_eq_false_iff, Bool.not_eq_false',
    decide_eq_false_iff_not, not_not] at stops
  exact stops.symm

/-- Whether a mark in front of a text goes into its first field and no further: the text begins with no
line end, quote or mark, and its first field has room for the mark. -/
structure TakesMark (separator : CodePoint) (t : Text) : Prop where
  shown : t ≠ []
  begun : ∀ c ∈ t.head?, isLineEnd c = false ∧ c ≠ .scalar '"' ∧ c ≠ Text.byteOrderMark
  room : (t.takeWhile (goesOn separator)).length < fieldLimit

/-- A mark in front of a text stands in the first field of its first record, if there is one, and
changes nothing else. -/
theorem records_marked (proper : Separates separator) (unmarked : separator ≠ Text.byteOrderMark)
    (ends : LineEnds) {t : Text} (takes : TakesMark separator t) (first number : Nat) :
    ∃ field after, field <+: t ∧
      records separator .start first number (lines ends t) = led [field] after ∧
      records separator .start first number (lines ends (Text.byteOrderMark :: t))
        = led [Text.byteOrderMark :: field] after := by
  obtain ⟨line, others, nonempty, before, cut⟩ := exists_line ends takes.shown
  have marked : lines ends (Text.byteOrderMark :: t) = (Text.byteOrderMark :: line) :: others := by
    rw [lines, linesFrom.eq_6 _ _ _ _ (by decide) (by decide), cut]
    rfl
  obtain ⟨c, line, rfl⟩ := List.exists_cons_of_ne_nil nonempty
  obtain ⟨behind, rfl⟩ := before
  obtain ⟨within, unquote, -⟩ := takes.begun c rfl
  let field := (c :: line).takeWhile (goesOn separator)
  let tail := (c :: line).dropWhile (goesOn separator)
  have whole : field ++ tail = c :: line := List.takeWhile_append_dropWhile
  have bare : Bare separator field := bare_takeWhile (by simpa using unquote)
  have bareMarked : Bare separator (Text.byteOrderMark :: field) :=
    ⟨by simp [Text.byteOrderMark], List.forall_mem_cons.mpr ⟨⟨by decide, unmarked.symm⟩, bare.inside⟩⟩
  have ended : EndsField separator tail := endsField_dropWhile _
  have separated (empty : field = []) : tail.head? = some separator := by
    rw [empty, List.nil_append] at whole
    rw [whole]
    have stops := ended c (by rw [whole]; rfl)
    simpa [within] using stops
  have room : field.length < fieldLimit := by
    refine Nat.lt_of_le_of_lt ?_ takes.room
    rw [List.takeWhile_append]
    split_ifs
    · exact (List.takeWhile_prefix _).length_le.trans (by simp)
    · exact Nat.le_refl _
  obtain ⟨after, records⟩ :=
    exists_after separator (afterField separator tail) first number others
  refine ⟨field, after, ⟨tail ++ behind, by rw [← List.append_assoc, whole]⟩, ?_, ?_⟩
  · rw [lines, cut, List.reverse_nil, List.nil_append, ← whole]
    exact records _ _ _ (takeLine_first proper bare ended separated room.le)
  · rw [marked, ← whole]
    have nonempty (none : Text.byteOrderMark :: field = []) : tail.head? = some separator := by
      cases none
    exact records _ _ _ (takeLine_first proper bareMarked ended nonempty room)

end Intake.Table
