import Intake.Proofs.Encoding
import Intake.Proofs.Table.Spelled

/-! What a file reader finds in a table that was written. A field comes back if it is not too long for
the reader and if it is quoted wherever a carriage return stands in it; a carriage return that is not
inside quotes tears its record. -/
namespace Intake.Table

open Machine (isLineEnd)

variable {separator : CodePoint} {m n : Machine} {text field : Text} {fields before : List Text}

def Legible (separator : CodePoint) (field : Text) : Prop :=
  field.length ≤ fieldLimit ∧ (.scalar '\r' ∈ field → needsQuotes separator field = true)

instance (separator : CodePoint) (field : Text) : Decidable (Legible separator field) :=
  inferInstanceAs (Decidable (_ ∧ _))

/-- A legible field is spelled by what is written of it. -/
theorem spelled_writeField (legible : Legible separator field) :
    FieldSpelled separator (writeField separator field) field := by
  unfold writeField
  split_ifs with quoted
  · exact .quoted field
  · have inside (c : CodePoint) (here : c ∈ field) :
        c ≠ .scalar '"' ∧ isLineEnd c = false ∧ c ≠ separator := by
      have each := List.any_eq_false.mp (Bool.eq_false_iff.mpr quoted) c here
      simp only [Bool.or_eq_true, decide_eq_true_eq, not_or] at each
      obtain ⟨⟨other, unquote⟩, feed⟩ := each
      have carriage : c ≠ .scalar '\r' := by
        rintro rfl
        exact quoted (legible.2 here)
      exact ⟨unquote, by simp [isLineEnd, feed, carriage], other⟩
    refine .bare ⟨fun begins => ?_, fun c here => (inside c here).2⟩
    exact (inside _ (List.mem_of_mem_head? begins)).1 rfl

theorem bare_of_append {a b : Text} (bare : needsQuotes separator (a ++ b) = false) :
    needsQuotes separator a = false := by
  rw [needsQuotes, List.any_append, Bool.or_eq_false_iff] at bare
  exact bare.1

theorem writeField_bare (bare : needsQuotes separator field = false) :
    writeField separator field = field := by
  rw [writeField, bare, if_neg Bool.false_ne_true]

theorem isScalar_writeField (scalar : field.isScalar = true) :
    (writeField separator field).isScalar = true := by
  have doubled : Text.isScalar (field.flatMap fun c => if c = .scalar '"' then [c, c] else [c]) = true := by
    refine List.all_eq_true.mpr fun c here => ?_
    obtain ⟨d, there, part⟩ := List.mem_flatMap.mp here
    obtain rfl : c = d := by
      split_ifs at part <;> simpa using part
    exact List.all_eq_true.mp scalar c there
  unfold writeField
  split_ifs
  · rw [quoteField, Text.isScalar_append, Text.isScalar_append, doubled]
    rfl
  · exact scalar

/-! Records. -/

def recordText (separator : CodePoint) (fields : List Text) : Text :=
  Text.join [separator] (fields.map (writeField separator))

def furtherFields (separator : CodePoint) (fields : List Text) : Text :=
  fields.flatMap fun field => separator :: writeField separator field

theorem recordText_cons (separator : CodePoint) (field : Text) (fields : List Text) :
    recordText separator (field :: fields)
      = writeField separator field ++ furtherFields separator fields := by
  induction fields generalizing field with
  | nil => simp [recordText, Text.join, furtherFields]
  | cons next fields ih =>
    have rest := ih next
    rw [recordText, List.map_cons] at rest ⊢
    rw [List.map_cons, Text.join, rest]
    · simp [furtherFields]
    · simp

theorem FieldsSpelled.further (spelled : FieldsSpelled separator text before)
    (legible : ∀ field ∈ fields, Legible separator field) :
    FieldsSpelled separator (text ++ furtherFields separator fields) (before ++ fields) := by
  induction fields generalizing text before with
  | nil => simpa [furtherFields] using spelled
  | cons field fields ih =>
    obtain ⟨here, later⟩ := List.forall_mem_cons.mp legible
    have rest := ih (.more spelled (spelled_writeField here)) later
    simpa [furtherFields] using rest

structure Ending (ends : Text) : Prop where
  shown : ends ≠ []
  all : ∀ c ∈ ends, isLineEnd c = true

theorem takeLine_fields (proper : Separates separator) (wide : 2 ≤ fields.length)
    (legible : ∀ field ∈ fields, Legible separator field) {ends : Text} (ending : Ending ends) :
    ∃ n, Machine.start.takeLine separator (recordText separator fields ++ ends) = some n ∧
      n.state = .recordStart ∧ n.fields = fields.reverse := by
  obtain ⟨field, next, fields, rfl⟩ : ∃ field next rest, fields = field :: next :: rest := by
    match fields, wide with
    | field :: next :: rest, _ => exact ⟨field, next, rest, rfl⟩
  obtain ⟨here, later⟩ := List.forall_mem_cons.mp legible
  have spelled := FieldsSpelled.further (.one (spelled_writeField here)) later
  rw [← recordText_cons, List.singleton_append] at spelled
  obtain ⟨n, taken, behind, begun⟩ := steps_fields proper spelled fun field there => (legible field there).1
  have inside : n.state ≠ .recordStart := fun start => by
    simpa [recordText_cons, furtherFields] using begun start
  obtain ⟨c, ends, rfl⟩ := List.exists_cons_of_ne_nil ending.shown
  obtain ⟨k, first, ended, kept⟩ := step_end proper behind.outside.1 (ending.all c List.mem_cons_self)
  have all : ∀ d ∈ ends, isLineEnd d = true := fun d there => ending.all d (List.mem_cons_of_mem c there)
  refine ⟨k.endLine, ?_, endLine_unquoted (by simp [ended]), ?_⟩
  · rw [takeLine_append, taken, Option.bind_some, Machine.takeLine, first]
    exact (takeLine_ended ended).trans (if_pos all)
  · rw [kept, behind.fields_endLine inside]

theorem countedFields_counting {r : Record} (counts : r.counts = true)
    (records : List (Option Record)) :
    countedFields (some r :: records) = r.fields :: countedFields records := by
  simp [countedFields, counts]

/-- The record of some fields is read first of all, whatever line ends stand behind it. -/
theorem countedFields_first (proper : Separates separator) (wide : 2 ≤ fields.length)
    (legible : ∀ field ∈ fields, Legible separator field) {ends : Text} (ending : Ending ends)
    (rest : List Text) (line : Nat) :
    ∃ next, (records separator .start line line
          (lines .any (recordText separator fields ++ ends) ++ rest)).head?
        = some (some ⟨line, fields⟩) ∧
      countedFields (records separator .start line line
          (lines .any (recordText separator fields ++ ends) ++ rest))
        = fields :: countedFields (records separator .start next next rest) := by
  obtain ⟨n, taken, finished, found⟩ := takeLine_fields proper wide legible ending
  have cut := records_line proper.inside (recordText separator fields ++ ends) .start rest line line
    (by simp [ending.shown]) (by simp [taken])
  rw [taken] at cut
  dsimp only at cut
  rw [if_pos finished, found, List.reverse_reverse] at cut
  obtain ⟨blanks, next, blank, same⟩ := cut
  have counts : Record.counts ⟨line, fields⟩ = true := by
    match fields, wide with
    | _ :: _ :: _, _ => rfl
  refine ⟨next, by rw [same]; rfl, ?_⟩
  rw [same, countedFields_counting counts, countedFields_blanks blank]

/-! Tables. -/

section
variable {rows : List (List Text)}

theorem write_cons (wide : 2 ≤ fields.length) (rows : List (List Text)) :
    write separator (fields :: rows)
      = recordText separator fields ++ .scalar '\n' :: write separator rows := by
  have record : writeRecord separator fields = recordText separator fields ++ [.scalar '\n'] := by
    match fields, wide with
    | _ :: _ :: _, _ => simp [writeRecord, recordText, Text.ofString]
  rw [write, List.flatMap_cons, record, List.append_assoc]
  rfl

theorem isScalar_write (proper : CodePoint.isScalar separator = true)
    (wide : ∀ row ∈ rows, 2 ≤ row.length)
    (scalar : ∀ row ∈ rows, ∀ field ∈ row, field.isScalar = true) :
    (write separator rows).isScalar = true := by
  induction rows with
  | nil => rfl
  | cons row rows ih =>
    rw [List.forall_mem_cons] at wide scalar
    have single : Text.isScalar [separator] = true := by simp [proper]
    have fields : (recordText separator row).isScalar = true :=
      (Text.isScalar_join single).mpr
        (List.forall_mem_map.mpr fun field here => isScalar_writeField (scalar.1 field here))
    rw [write_cons wide.1, Text.isScalar_append, fields, Text.isScalar_cons, ih wide.2 scalar.2]
    rfl

private theorem ending_feed : Ending [.scalar '\n'] := ⟨List.cons_ne_nil _ _, by decide⟩

/-- A row whose fields are all legible is read first of all, and then the other rows. -/
theorem countedFields_row (proper : Separates separator) (wide : 2 ≤ fields.length)
    (legible : ∀ field ∈ fields, Legible separator field) (rows : List (List Text)) (line : Nat) :
    ∃ next, (records separator .start line line
          (lines .any (write separator (fields :: rows)))).head? = some (some ⟨line, fields⟩) ∧
      countedFields (records separator .start line line (lines .any (write separator (fields :: rows))))
        = fields
          :: countedFields (records separator .start next next (lines .any (write separator rows))) := by
  rw [write_cons wide, lines_any_feed]
  exact countedFields_first proper wide legible ending_feed _ line

/-- A row in which a carriage return stands outside of quotes is read only up to there. -/
theorem countedFields_torn (proper : Separates separator) (begun : before ≠ [])
    (legible : ∀ field ∈ before, Legible separator field) {a b : Text}
    (bare : needsQuotes separator (a ++ .scalar '\r' :: b) = false)
    (clear : CodePoint.scalar '\r' ∉ a) (short : a.length ≤ fieldLimit) (after : List Text)
    (rows : List (List Text)) (line : Nat) :
    ∃ later, countedFields (records separator .start line line (lines .any
        (write separator ((before ++ (a ++ .scalar '\r' :: b) :: after) :: rows))))
      = (before ++ [a]) :: later := by
  obtain ⟨first, before, rfl⟩ := List.exists_cons_of_ne_nil begun
  have torn : ∃ rest, write separator ((first :: before ++ (a ++ .scalar '\r' :: b) :: after) :: rows)
      = recordText separator (first :: before ++ [a]) ++ .scalar '\r' :: rest := by
    have wide : 2 ≤ (first :: before ++ (a ++ .scalar '\r' :: b) :: after).length := by
      simp only [List.length_append, List.length_cons]
      omega
    refine ⟨b ++ (furtherFields separator after ++ .scalar '\n' :: write separator rows), ?_⟩
    rw [write_cons wide, List.cons_append, List.cons_append, recordText_cons, recordText_cons]
    simp [furtherFields, writeField_bare bare, writeField_bare (bare_of_append bare)]
  obtain ⟨rest, torn⟩ := torn
  obtain ⟨ends, rest, shown, all, cut⟩ :=
    lines_any_carriage (recordText separator (first :: before ++ [a])) rest
  have last : Legible separator a := ⟨short, fun here => absurd here clear⟩
  obtain ⟨next, _, counted⟩ := countedFields_first proper (by simp)
    (List.forall_mem_append.mpr ⟨legible, List.forall_mem_singleton.mpr last⟩)
    ⟨shown, all⟩ (lines .any rest) line
  rw [torn, cut, counted]
  exact ⟨_, rfl⟩

end

end Intake.Table
