import Intake.Proofs.Table.Limits
import Intake.Table.Writer

/-! Which texts hold records. A field is written as it is or in quotes, the fields of a record stand
between separators, and a line end stands behind each record. The reader takes such a text, and it finds
the records, unless a field is too long for it: there it gives up a record. -/
namespace Intake.Table

open Machine (isLineEnd)

variable {separator : CodePoint} {m n : Machine} {text rest written field : Text}
  {fields before : List Text}

structure Separates (separator : CodePoint) : Prop where
  inside : isLineEnd separator = false
  unquote : separator ≠ .scalar '"'

theorem Separates.not_end (proper : Separates separator) {c : CodePoint} (ending : isLineEnd c = true) :
    c ≠ .scalar '"' ∧ c ≠ separator := by
  constructor
  · rintro rfl
    cases ending
  · rintro rfl
    exact Bool.false_ne_true (proper.inside.symm.trans ending)

/-! Texts. -/

def doubled (field : Text) : Text := field.flatMap fun c => if c = .scalar '"' then [c, c] else [c]

theorem quoteField_eq (field : Text) :
    quoteField field = .scalar '"' :: (doubled field ++ [.scalar '"']) := by
  rw [quoteField, doubled, List.append_assoc]
  rfl

structure Bare (separator : CodePoint) (field : Text) : Prop where
  unquoted : field.head? ≠ some (.scalar '"')
  inside : ∀ c ∈ field, isLineEnd c = false ∧ c ≠ separator

inductive FieldSpelled (separator : CodePoint) : Text → Text → Prop
  | bare {field : Text} (bare : Bare separator field) : FieldSpelled separator field field
  | quoted (field : Text) : FieldSpelled separator (quoteField field) field

inductive FieldsSpelled (separator : CodePoint) : Text → List Text → Prop
  | one {written field : Text} (spelled : FieldSpelled separator written field) :
      FieldsSpelled separator written [field]
  | more {written more field : Text} {fields : List Text}
      (before : FieldsSpelled separator written fields) (spelled : FieldSpelled separator more field) :
      FieldsSpelled separator (written ++ separator :: more) (fields ++ [field])

inductive RecordSpelled (separator : CodePoint) : Text → List Text → Prop
  | blank : RecordSpelled separator [] []
  | shown {written : Text} {fields : List Text} (shown : written ≠ [])
      (spelled : FieldsSpelled separator written fields) : RecordSpelled separator written fields

def carriages (number : Nat) : Text := List.replicate number (.scalar '\r')

inductive Spelled (separator : CodePoint) : Text → List (List Text) → Prop
  | nothing : Spelled separator [] []
  | last {written : Text} {fields : List Text} (number : Nat)
      (spelled : RecordSpelled separator written fields) (shown : written ++ carriages number ≠ []) :
      Spelled separator (written ++ carriages number) [fields]
  | record {written rest : Text} {fields : List Text} {records : List (List Text)} (number : Nat)
      (spelled : RecordSpelled separator written fields) (later : Spelled separator rest records) :
      Spelled separator (written ++ carriages number ++ .scalar '\n' :: rest) (fields :: records)

/-! Characters. -/

theorem steps_cons (m : Machine) (c : CodePoint) (text : Text) :
    m.steps separator (c :: text) = (m.step separator c).bind (·.steps separator text) := rfl

theorem steps_append_bind (m : Machine) (text rest : Text) :
    m.steps separator (text ++ rest) = (m.steps separator text).bind (·.steps separator rest) :=
  List.foldlM_append

theorem step_begun {c : CodePoint} (stepped : m.step separator c = some n) :
    n.state ≠ .recordStart := by
  have added {state : State} (other : state ≠ .recordStart) (added : m.add c state = some n) :
      n.state ≠ .recordStart := by
    unfold Machine.add at added
    split_ifs at added
    cases added
    exact other
  cases state : m.state <;> simp only [Machine.step, state, Machine.stepField] at stepped <;>
    split_ifs at stepped <;>
    first
    | exact added State.noConfusion stepped
    | (cases stepped; simp [Machine.save, state])

/-- Outside of quotes a line end ends the record. -/
theorem step_end (proper : Separates separator) (outside : m.state ≠ .quoted) {c : CodePoint}
    (ending : isLineEnd c = true) :
    ∃ n, m.step separator c = some n ∧ n.state = .lineEnd ∧ n.endLine.fields = m.endLine.fields := by
  obtain ⟨unquote, other⟩ := proper.not_end ending
  cases state : m.state <;>
    simp [Machine.step, Machine.stepField, state, ending, unquote, other, Machine.save,
      Machine.endLine] at outside ⊢

/-- Inside quotes a line feed is a character like any other. -/
theorem state_of_feed (quoted : m.state = .quoted)
    (stepped : m.step separator (.scalar '\n') = some n) : n.state = .quoted := by
  have added : m.add (.scalar '\n') .quoted = some n := by
    simpa [Machine.step, quoted] using stepped
  unfold Machine.add at added
  split_ifs at added
  cases added
  rfl

/-- Behind the end of a record nothing but line ends can follow on its line. -/
theorem steps_ended (ended : m.state = .lineEnd) (stepped : m.steps separator text = some n) :
    n.state = .lineEnd := by
  induction text generalizing m with
  | nil =>
    cases stepped
    exact ended
  | cons c text ih =>
    rw [steps_cons] at stepped
    obtain ⟨k, first, later⟩ := Option.bind_eq_some_iff.mp stepped
    simp only [Machine.step, ended, Option.ite_none_right_eq_some, Option.some.injEq] at first
    exact ih (first.2 ▸ ended) later

/-! Fields. The machine is written out, with what it has of its field, its size and the fields before
it. -/

section
variable {state : State} {f : Text} {size : Nat}

private theorem add_eq (room : size < fieldLimit) (c : CodePoint) (next : State) :
    Machine.add ⟨state, f, size, before⟩ c next = some ⟨next, c :: f, size + 1, before⟩ :=
  if_neg (Nat.not_le.mpr room)

private theorem steps_plain (inside : ∀ c ∈ text, isLineEnd c = false ∧ c ≠ separator)
    (room : size + text.length ≤ fieldLimit) :
    Machine.steps separator ⟨.plain, f, size, before⟩ text
      = some ⟨.plain, text.reverse ++ f, size + text.length, before⟩ := by
  induction text generalizing f size with
  | nil => rfl
  | cons c text ih =>
    obtain ⟨⟨inside, other⟩, later⟩ := List.forall_mem_cons.mp inside
    rw [List.length_cons] at room
    have first : Machine.step separator ⟨.plain, f, size, before⟩ c
        = some ⟨.plain, c :: f, size + 1, before⟩ := by
      simp only [Machine.step, inside, other, Bool.false_eq_true, if_false]
      exact add_eq (by omega) c .plain
    rw [steps_cons, first, Option.bind_some, ih later (by omega)]
    simp [Nat.add_assoc, Nat.add_comm 1]

private theorem steps_doubled (room : size + text.length ≤ fieldLimit) :
    Machine.steps separator ⟨.quoted, f, size, before⟩ (doubled text)
      = some ⟨.quoted, text.reverse ++ f, size + text.length, before⟩ := by
  induction text generalizing f size with
  | nil => rfl
  | cons c text ih =>
    rw [List.length_cons] at room
    have first : Machine.steps separator ⟨.quoted, f, size, before⟩
        (if c = .scalar '"' then [c, c] else [c]) = some ⟨.quoted, c :: f, size + 1, before⟩ := by
      split_ifs with quote
      · rw [steps_cons, quote]
        simp only [Machine.step, if_true, Option.bind_some]
        rw [steps_cons]
        simp only [Machine.step, if_true]
        rw [add_eq (by omega)]
        rfl
      · rw [steps_cons]
        simp only [Machine.step, quote, if_false]
        rw [add_eq (by omega)]
        rfl
    rw [doubled, List.flatMap_cons, ← doubled, steps_append_bind, first, Option.bind_some,
      ih (by omega)]
    simp [Nat.add_assoc, Nat.add_comm 1]

theorem steps_bare {c : CodePoint} (begun : state = .recordStart ∨ state = .fieldStart)
    (bare : Bare separator (c :: text)) (room : 1 + text.length ≤ fieldLimit) :
    Machine.steps separator ⟨state, [], 0, before⟩ (c :: text)
      = some ⟨.plain, text.reverse ++ [c], 1 + text.length, before⟩ := by
  obtain ⟨⟨within, other⟩, later⟩ := List.forall_mem_cons.mp bare.inside
  have unquote : c ≠ .scalar '"' := by simpa using bare.unquoted
  have first : Machine.step separator ⟨state, [], 0, before⟩ c = some ⟨.plain, [c], 1, before⟩ := by
    rcases begun with rfl | rfl <;>
      simp [Machine.step, Machine.stepField, within, unquote, other, Machine.add, fieldLimit]
  rw [steps_cons, first, Option.bind_some, steps_plain later room]

private theorem steps_opened (begun : state = .recordStart ∨ state = .fieldStart)
    (room : text.length ≤ fieldLimit) :
    Machine.steps separator ⟨state, [], 0, before⟩ (.scalar '"' :: doubled text)
      = some ⟨.quoted, text.reverse, text.length, before⟩ := by
  have opened : Machine.step separator ⟨state, [], 0, before⟩ (.scalar '"')
      = some ⟨.quoted, [], 0, before⟩ := by
    rcases begun with rfl | rfl <;> rfl
  rw [steps_cons, opened, Option.bind_some, steps_doubled (by omega), List.append_nil, Nat.zero_add]

end

structure Behind (m : Machine) (fields : List Text) : Prop where
  whole : m.field.reverse :: m.fields = fields
  state : m.state = .recordStart ∨ m.state = .fieldStart ∨ m.state = .plain ∨ m.state = .quoteSeen

theorem Behind.separated (behind : Behind m fields) (proper : Separates separator) :
    m.step separator separator = some ⟨.fieldStart, [], 0, fields⟩ := by
  obtain ⟨inside, unquote⟩ := proper
  obtain ⟨rfl, state | state | state | state⟩ := behind <;>
    simp [Machine.step, state, Machine.stepField, inside, unquote, Machine.save]

theorem Behind.outside (behind : Behind m fields) : m.state ≠ .quoted ∧ m.state ≠ .lineEnd := by
  obtain ⟨_, state | state | state | state⟩ := behind <;> simp [state]

theorem Behind.fields_endLine (behind : Behind m fields) (begun : m.state ≠ .recordStart) :
    m.endLine.fields = fields := by
  obtain ⟨rfl, state | state | state | state⟩ := behind
  · exact absurd state begun
  all_goals simp [Machine.endLine, state, Machine.save]

/-- Behind a field that is not too long the machine has it, however it is written. Nothing but an empty
first field leaves it at the start of the record. -/
theorem steps_field {state : State} (begun : state = .recordStart ∨ state = .fieldStart)
    (spelled : FieldSpelled separator written field) (short : field.length ≤ fieldLimit) :
    ∃ n, Machine.steps separator ⟨state, [], 0, before⟩ written = some n ∧
      Behind n (field :: before) ∧ (n.state = .recordStart → state = .recordStart ∧ written = []) := by
  cases spelled with
  | quoted =>
    have closed : Machine.steps separator ⟨.quoted, field.reverse, field.length, before⟩
        [.scalar '"'] = some ⟨.quoteSeen, field.reverse, field.length, before⟩ := rfl
    refine ⟨⟨.quoteSeen, field.reverse, field.length, before⟩, ?_,
      ⟨by simp, .inr (.inr (.inr rfl))⟩, State.noConfusion⟩
    rw [quoteField_eq, ← List.cons_append, steps_append_bind, steps_opened begun short,
      Option.bind_some, closed]
  | bare bare =>
    cases written with
    | nil =>
      exact ⟨⟨state, [], 0, before⟩, rfl, ⟨rfl, begun.imp_right .inl⟩, fun start => ⟨start, rfl⟩⟩
    | cons c rest =>
      rw [List.length_cons, Nat.add_comm] at short
      exact ⟨_, steps_bare begun bare short, ⟨by simp, .inr (.inr (.inl rfl))⟩, State.noConfusion⟩

theorem steps_fields (proper : Separates separator) (spelled : FieldsSpelled separator written fields)
    (short : ∀ field ∈ fields, field.length ≤ fieldLimit) :
    ∃ n, Machine.start.steps separator written = some n ∧ Behind n fields.reverse ∧
      (n.state = .recordStart → written = []) := by
  -- The separator in front of each field ends the field before it.
  induction spelled with
  | one spelled =>
    obtain ⟨n, taken, behind, begun⟩ :=
      @steps_field separator _ _ [] _ (.inl rfl) spelled (by simpa using short)
    exact ⟨n, taken, behind, fun start => (begun start).2⟩
  | @more written more field fields _ spelled ih =>
    rw [List.forall_mem_append, List.forall_mem_singleton] at short
    obtain ⟨k, taken, behind, _⟩ := ih short.1
    obtain ⟨n, rest, last, begun⟩ :=
      @steps_field separator _ _ fields.reverse _ (.inr rfl) spelled short.2
    refine ⟨n, ?_, by simpa using last, fun start => nomatch (begun start).1⟩
    rw [steps_append_bind, taken, Option.bind_some, steps_cons, behind.separated proper,
      Option.bind_some, rest]

/-! Fields that are too long. -/

def GivesUp (separator : CodePoint) (m : Machine) (text : Text) : Prop :=
  ∃ taken c rest n, text = taken ++ c :: rest ∧ m.steps separator taken = some n ∧
    n.state ≠ .lineEnd ∧ n.step separator c = none

theorem GivesUp.append (givesUp : GivesUp separator m text) (more : Text) :
    GivesUp separator m (text ++ more) := by
  obtain ⟨taken, c, rest, n, rfl, stepped, within, stuck⟩ := givesUp
  exact ⟨taken, c, rest ++ more, n, by simp, stepped, within, stuck⟩

theorem GivesUp.behind (givesUp : GivesUp separator n text) {before : Text}
    (stepped : m.steps separator before = some n) : GivesUp separator m (before ++ text) := by
  obtain ⟨taken, c, rest, k, rfl, later, within, stuck⟩ := givesUp
  refine ⟨before ++ taken, c, rest, k, by simp, ?_, within, stuck⟩
  rw [steps_append_bind, stepped, Option.bind_some, later]

theorem GivesUp.takeLine (givesUp : GivesUp separator m text) : m.takeLine separator text = none := by
  obtain ⟨taken, c, rest, n, rfl, stepped, _, stuck⟩ := givesUp
  rw [takeLine_append, stepped, Option.bind_some, Machine.takeLine, stuck]

/-- A field that is too long is given up, however it is written. -/
theorem givesUp_field {state : State} (begun : state = .recordStart ∨ state = .fieldStart)
    (spelled : FieldSpelled separator written field) (long : fieldLimit < field.length) :
    GivesUp separator ⟨state, [], 0, before⟩ written := by
  -- What fits into the field is taken, and the character behind it is not.
  obtain ⟨room, d, later, rfl, full⟩ : ∃ room d later, field = room ++ d :: later ∧
      room.length = fieldLimit := by
    obtain ⟨d, later, rest⟩ := List.exists_cons_of_length_pos
      (show 0 < (field.drop fieldLimit).length by rw [List.length_drop]; omega)
    refine ⟨field.take fieldLimit, d, later, ?_, by rw [List.length_take]; omega⟩
    rw [← rest, List.take_append_drop]
  cases spelled with
  | quoted =>
    have opened : Machine.steps separator ⟨state, [], 0, before⟩ (.scalar '"' :: doubled room) = _ :=
      steps_opened begun full.le
    have written : quoteField (room ++ d :: later) = .scalar '"' :: doubled room
        ++ (doubled [d] ++ (doubled later ++ [.scalar '"'])) := by
      simp [quoteField_eq, doubled]
    rw [written]
    refine GivesUp.behind (GivesUp.append ?_ _) opened
    by_cases quote : d = .scalar '"'
    · exact ⟨[d], d, [], ⟨.quoteSeen, room.reverse, room.length, before⟩, by simp [doubled, quote],
        by rw [quote]; rfl, State.noConfusion, by simp [Machine.step, quote, Machine.add, full]⟩
    · exact ⟨[], d, [], _, by simp [doubled, quote], rfl, State.noConfusion,
        by simp [Machine.step, quote, Machine.add, full]⟩
  | bare bare =>
    cases room with
    | nil => simp [fieldLimit] at full
    | cons c room =>
      have start : Bare separator (c :: room) :=
        ⟨bare.unquoted, fun e here => bare.inside e (List.mem_append_left _ here)⟩
      obtain ⟨within, other⟩ := bare.inside d (by simp)
      rw [List.length_cons, Nat.add_comm] at full
      refine ⟨c :: room, d, later, _, rfl, steps_bare begun start full.le, State.noConfusion, ?_⟩
      simp [Machine.step, within, other, Machine.add, full]

theorem givesUp_fields (proper : Separates separator)
    (spelled : FieldsSpelled separator written fields)
    (long : ¬ ∀ field ∈ fields, field.length ≤ fieldLimit) : GivesUp separator .start written := by
  induction spelled with
  | one spelled => exact givesUp_field (.inl rfl) spelled (by simpa using long)
  | @more written more field fields earlier spelled ih =>
    by_cases short : ∀ field ∈ fields, field.length ≤ fieldLimit
    · obtain ⟨n, taken, behind, _⟩ := steps_fields proper earlier short
      have last : fieldLimit < field.length := by
        by_contra fits
        exact long (List.forall_mem_append.mpr ⟨short, by simpa using fits⟩)
      have next : n.steps separator [separator] = some ⟨.fieldStart, [], 0, fields.reverse⟩ := by
        rw [steps_cons, behind.separated proper]
        rfl
      have stuck : GivesUp separator ⟨.fieldStart, [], 0, fields.reverse⟩ more :=
        givesUp_field (.inr rfl) spelled last
      rw [List.append_cons]
      exact stuck.behind (by rw [steps_append_bind, taken, Option.bind_some, next])
    · exact (ih short).append _

/-! Records. -/

def readAll? (separator : CodePoint) (m : Machine) : Text → Option (List (List Text))
  | [] =>
    match m.state with
    | .recordStart => some []
    | .quoted => none
    | _ => some [m.endLine.fields.reverse]
  | c :: rest => do
    let n ← m.step separator c
    if c = .scalar '\n' ∧ n.state ≠ .quoted then
      return n.endLine.fields.reverse :: (← readAll? separator .start rest)
    readAll? separator n rest

theorem readAll_cons {c : CodePoint} (stepped : m.step separator c = some n) (rest : Text) :
    readAll? separator m (c :: rest) = if c = .scalar '\n' ∧ n.state ≠ .quoted then
      (readAll? separator .start rest).map (n.endLine.fields.reverse :: ·)
      else readAll? separator n rest := by
  rw [readAll?, stepped]
  dsimp only [Option.bind_eq_bind, Option.bind_some]
  split_ifs
  · cases readAll? separator .start rest <;> rfl
  · rfl

/-- What is written of a record before it ends is read like any text. -/
theorem readAll_steps (proper : Separates separator) (stepped : m.steps separator text = some n)
    (open_ : n.state ≠ .lineEnd) (rest : Text) :
    readAll? separator m (text ++ rest) = readAll? separator n rest := by
  induction text generalizing m with
  | nil =>
    cases stepped
    rfl
  | cons c text ih =>
    rw [steps_cons] at stepped
    obtain ⟨k, first, later⟩ := Option.bind_eq_some_iff.mp stepped
    have within : ¬ (c = .scalar '\n' ∧ k.state ≠ .quoted) := by
      rintro ⟨rfl, outside⟩
      refine open_ (steps_ended ?_ later)
      have unquoted : m.state ≠ .quoted := fun quoted => outside (state_of_feed quoted first)
      obtain ⟨_, same, ended, _⟩ := step_end proper unquoted (c := .scalar '\n') rfl
      exact (Option.some.inj (first.symm.trans same)) ▸ ended
    rw [List.cons_append, readAll_cons first, if_neg within, ih later]

/-- The end of a line ends a record that is not inside quotes. -/
theorem readAll_ended (proper : Separates separator) (outside : m.state ≠ .quoted) (number : Nat)
    (rest : Text) :
    readAll? separator m (carriages number ++ .scalar '\n' :: rest)
      = (readAll? separator .start rest).map (m.endLine.fields.reverse :: ·) := by
  induction number generalizing m with
  | zero =>
    obtain ⟨n, stepped, ended, same⟩ := step_end proper outside (c := .scalar '\n') rfl
    have next : readAll? separator m (.scalar '\n' :: rest) = _ := readAll_cons stepped rest
    rw [carriages, List.replicate_zero, List.nil_append, next, if_pos ⟨rfl, by simp [ended]⟩, same]
  | succ number ih =>
    obtain ⟨n, stepped, ended, same⟩ := step_end proper outside (c := .scalar '\r') rfl
    rw [carriages, List.replicate_succ, List.cons_append, readAll_cons stepped, if_neg (by simp),
      ← carriages, ih (by simp [ended]), same]

/-- So does the end of the text. -/
theorem readAll_last (proper : Separates separator) (outside : m.state ≠ .quoted) {number : Nat}
    (shown : m.state ≠ .recordStart ∨ number ≠ 0) :
    readAll? separator m (carriages number) = some [m.endLine.fields.reverse] := by
  induction number generalizing m with
  | zero =>
    rw [carriages, List.replicate_zero, readAll?]
    cases state : m.state <;> simp [state] at outside shown ⊢
  | succ number ih =>
    obtain ⟨n, stepped, ended, same⟩ := step_end proper outside (c := .scalar '\r') rfl
    rw [carriages, List.replicate_succ, readAll_cons stepped, if_neg (by simp), ← carriages,
      ih (by simp [ended]) (.inl (by simp [ended])), same]

/-- Behind a record that is written the machine has its fields. -/
theorem steps_record (proper : Separates separator) (spelled : RecordSpelled separator written fields)
    (short : ∀ field ∈ fields, field.length ≤ fieldLimit) :
    ∃ n, Machine.start.steps separator written = some n ∧ n.state ≠ .quoted ∧ n.state ≠ .lineEnd ∧
      n.endLine.fields = fields.reverse ∧ (n.state = .recordStart → written = []) := by
  cases spelled with
  | blank => exact ⟨.start, rfl, nofun, nofun, rfl, fun _ => rfl⟩
  | shown shown spelled =>
    obtain ⟨n, taken, behind, begun⟩ := steps_fields proper spelled short
    exact ⟨n, taken, behind.outside.1, behind.outside.2,
      behind.fields_endLine fun start => shown (begun start), begun⟩

theorem readAll_givesUp (proper : Separates separator) (givesUp : GivesUp separator m text)
    (rest : Text) : readAll? separator m (text ++ rest) = none := by
  obtain ⟨taken, c, more, n, rfl, stepped, within, stuck⟩ := givesUp
  rw [List.append_assoc, readAll_steps proper stepped within, List.cons_append, readAll?, stuck]
  rfl

theorem givesUp_record (proper : Separates separator)
    (spelled : RecordSpelled separator written fields)
    (long : ¬ ∀ field ∈ fields, field.length ≤ fieldLimit) : GivesUp separator .start written := by
  cases spelled with
  | blank => exact absurd nofun long
  | shown _ spelled => exact givesUp_fields proper spelled long

/-- The reader takes a text that spells records whose fields are not too long, and finds these. -/
theorem readAll_of_spelled (proper : Separates separator) {records : List (List Text)}
    (spelled : Spelled separator text records)
    (short : ∀ fields ∈ records, ∀ field ∈ fields, field.length ≤ fieldLimit) :
    readAll? separator .start text = some records := by
  induction spelled with
  | nothing => rfl
  | last number spelled shown =>
    obtain ⟨n, taken, outside, open_, ended, begun⟩ :=
      steps_record proper spelled (by simpa using short)
    have some : n.state ≠ .recordStart ∨ number ≠ 0 := by
      by_contra none
      rw [not_or, not_not, not_not] at none
      exact shown (by rw [begun none.1, none.2]; rfl)
    rw [readAll_steps proper taken open_, readAll_last proper outside some, ended,
      List.reverse_reverse]
  | record number spelled _ ih =>
    obtain ⟨here, later⟩ := List.forall_mem_cons.mp short
    obtain ⟨n, taken, outside, open_, ended, _⟩ := steps_record proper spelled here
    rw [List.append_assoc, readAll_steps proper taken open_, readAll_ended proper outside, ih later,
      ended, List.reverse_reverse]
    rfl

/-- A field that is too long makes the reader give up a record of the text. -/
theorem readAll_of_long (proper : Separates separator) {records : List (List Text)}
    (spelled : Spelled separator text records)
    (long : ¬ ∀ fields ∈ records, ∀ field ∈ fields, field.length ≤ fieldLimit) :
    readAll? separator .start text = none := by
  induction spelled with
  | nothing => exact absurd nofun long
  | last number spelled _ =>
    exact readAll_givesUp proper (givesUp_record proper spelled (by simpa using long)) _
  | @record written rest fields records number spelled later ih =>
    by_cases short : ∀ field ∈ fields, field.length ≤ fieldLimit
    · obtain ⟨n, taken, outside, open_, _⟩ := steps_record proper spelled short
      rw [List.append_assoc, readAll_steps proper taken open_, readAll_ended proper outside,
        ih fun fits => long (List.forall_mem_cons.mpr ⟨short, fits⟩)]
      rfl
    · rw [List.append_assoc]
      exact readAll_givesUp proper (givesUp_record proper spelled short) _

end Intake.Table
