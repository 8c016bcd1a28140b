import Intake.Proofs.Table.Spelled

/-! The reader takes no text but those that spell records. What a machine was fed since its record began
is part of a spelling of that record, so a text that is taken whole is a spelling of what is found in
it. The reader is fed lines, and that makes no difference to this. -/
namespace Intake.Table

open Machine (isLineEnd)

variable {separator : CodePoint} {m n : Machine} {text rest written field : Text}
  {fields before : List Text}

/-! What a machine was fed since its record began. -/

inductive Ahead (separator : CodePoint) : List Text → Text → Prop
  | none : Ahead separator [] []
  | some {written : Text} {fields : List Text}
      (spelled : FieldsSpelled separator written fields.reverse) :
      Ahead separator fields (written ++ [separator])

inductive Fed (separator : CodePoint) : Machine → Text → Prop
  | start : Fed separator .start []
  | fieldStart {size : Nat} {fields : List Text} {before : Text}
      (ahead : Ahead separator fields before) (shown : before ≠ []) :
      Fed separator ⟨.fieldStart, [], size, fields⟩ before
  | plain {size : Nat} {fields : List Text} {before field : Text}
      (ahead : Ahead separator fields before) (bare : Bare separator field.reverse)
      (shown : field ≠ []) : Fed separator ⟨.plain, field, size, fields⟩ (before ++ field.reverse)
  | quoted {size : Nat} {fields : List Text} {before field : Text}
      (ahead : Ahead separator fields before) :
      Fed separator ⟨.quoted, field, size, fields⟩
        (before ++ .scalar '"' :: doubled field.reverse)
  | quoteSeen {size : Nat} {fields : List Text} {before field : Text}
      (ahead : Ahead separator fields before) :
      Fed separator ⟨.quoteSeen, field, size, fields⟩ (before ++ quoteField field.reverse)
  | lineEnd {size : Nat} {fields : List Text} {field written : Text} (number : Nat)
      (spelled : RecordSpelled separator written fields.reverse) :
      Fed separator ⟨.lineEnd, field, size, fields⟩ (written ++ carriages (number + 1))

theorem carriages_succ (number : Nat) :
    carriages (number + 1) = carriages number ++ [.scalar '\r'] := List.replicate_succ'

theorem Ahead.behind {before : Text} (ahead : Ahead separator fields before)
    (spelled : FieldSpelled separator written field) :
    FieldsSpelled separator (before ++ written) (field :: fields).reverse := by
  rw [List.reverse_cons]
  cases ahead with
  | none => exact .one spelled
  | some earlier =>
    rw [List.append_assoc]
    exact .more earlier spelled

theorem Ahead.next {before : Text} (ahead : Ahead separator fields before)
    (spelled : FieldSpelled separator written field) :
    Ahead separator (field :: fields) (before ++ written ++ [separator]) :=
  .some (ahead.behind spelled)

theorem Bare.snoc (bare : Bare separator field) (shown : field ≠ []) {c : CodePoint}
    (inside : isLineEnd c = false) (other : c ≠ separator) : Bare separator (field ++ [c]) := by
  refine ⟨?_, List.forall_mem_append.mpr ⟨bare.inside, by simp [inside, other]⟩⟩
  obtain ⟨d, rest, rfl⟩ := List.exists_cons_of_ne_nil shown
  exact bare.unquoted

theorem Bare.nil : Bare separator [] := ⟨nofun, nofun⟩

/-- Outside of quotes, what a machine was fed is a record with carriage returns behind it. -/
theorem Fed.record (fed : Fed separator m text) (outside : m.state ≠ .quoted) :
    ∃ written number, text = written ++ carriages number ∧
      RecordSpelled separator written m.endLine.fields.reverse := by
  cases fed with
  | start => exact ⟨[], 0, rfl, .blank⟩
  | fieldStart ahead shown =>
    have last := ahead.behind (.bare .nil)
    rw [List.append_nil] at last
    exact ⟨text, 0, (List.append_nil _).symm, .shown shown last⟩
  | plain ahead bare shown =>
    exact ⟨_, 0, (List.append_nil _).symm, .shown (by simp [shown]) (ahead.behind (.bare bare))⟩
  | quoted => exact absurd rfl outside
  | quoteSeen ahead =>
    exact ⟨_, 0, (List.append_nil _).symm, .shown (by simp [quoteField]) (ahead.behind (.quoted _))⟩
  | lineEnd number spelled => exact ⟨_, number + 1, rfl, spelled⟩

theorem Fed.begun (fed : Fed separator m text) : m.state = .recordStart ↔ text = [] := by
  cases fed with
  | start => simp [Machine.start]
  | fieldStart _ shown => simp [shown]
  | plain _ _ shown => simp [shown]
  | quoted | quoteSeen => simp [quoteField]
  | lineEnd number spelled => simp [carriages]

private theorem eq_of_add {c : CodePoint} {state : State} (added : m.add c state = some n) :
    n = ⟨state, c :: m.field, m.size + 1, m.fields⟩ := by
  unfold Machine.add at added
  split_ifs at added
  exact (Option.some.inj added).symm

private theorem fed_stepField (empty : m.field = []) (ahead : Ahead separator m.fields text)
    {c : CodePoint} (inside : isLineEnd c = false) (stepped : m.stepField separator c = some n) :
    Fed separator n (text ++ [c]) := by
  unfold Machine.stepField at stepped
  rw [inside, if_neg Bool.false_ne_true] at stepped
  split_ifs at stepped with quote other
  · cases stepped
    rw [quote, empty]
    exact .quoted ahead
  · cases stepped
    rw [Machine.save, empty, other]
    exact .fieldStart (by simpa using ahead.next (.bare .nil)) (by simp)
  · rw [eq_of_add stepped, empty]
    have bare : Bare separator [c].reverse := ⟨by simpa using quote, by simp [inside, other]⟩
    exact .plain ahead bare (by simp)

private theorem Fed.carriage (proper : Separates separator) (fed : Fed separator m text)
    (outside : m.state ≠ .quoted) (stepped : m.step separator (.scalar '\r') = some n) :
    Fed separator n (text ++ [.scalar '\r']) := by
  obtain ⟨written, number, rfl, spelled⟩ := fed.record outside
  obtain ⟨k, same, ended, kept⟩ := step_end proper outside (c := .scalar '\r') rfl
  obtain rfl : k = n := Option.some.inj (same.symm.trans stepped)
  obtain ⟨state, field, size, fields⟩ := k
  obtain rfl : state = .lineEnd := ended
  rw [List.append_assoc, ← carriages_succ]
  exact .lineEnd number (by rwa [← kept] at spelled)

/-- Whatever a machine takes goes on with the record, unless a line feed ends it. -/
theorem Fed.step (proper : Separates separator) (fed : Fed separator m text) {c : CodePoint}
    (stepped : m.step separator c = some n) (within : c = .scalar '\n' → n.state = .quoted) :
    Fed separator n (text ++ [c]) := by
  by_cases ending : isLineEnd c = true ∧ m.state ≠ .quoted
  · obtain ⟨ending, outside⟩ := ending
    obtain ⟨k, same, ended, _⟩ := step_end proper outside ending
    obtain rfl : k = n := Option.some.inj (same.symm.trans stepped)
    have feed : c ≠ .scalar '\n' := fun feed => State.noConfusion ((within feed).symm.trans ended)
    obtain rfl : c = .scalar '\r' := by simpa [isLineEnd, feed] using ending
    exact fed.carriage proper outside stepped
  · have inside : m.state ≠ .quoted → isLineEnd c = false := by
      intro outside
      by_contra ended
      exact ending ⟨by simpa using ended, outside⟩
    cases fed with
    | start =>
      have inside := inside State.noConfusion
      have field : Machine.start.stepField separator c = some n := by
        simpa [Machine.step, Machine.start, inside] using stepped
      exact fed_stepField rfl .none inside field
    | fieldStart ahead shown => exact fed_stepField rfl ahead (inside State.noConfusion) stepped
    | @plain size fields before field ahead bare shown =>
      have inside := inside State.noConfusion
      simp only [Machine.step, inside, Bool.false_eq_true, if_false] at stepped
      split_ifs at stepped with other
      · cases stepped
        rw [other]
        exact .fieldStart (ahead.next (.bare bare)) (by simp)
      · rw [eq_of_add stepped, List.append_assoc, ← List.reverse_cons]
        refine .plain ahead ?_ (by simp)
        rw [List.reverse_cons]
        exact bare.snoc (by simpa using shown) inside other
    | @quoted size fields before field ahead =>
      simp only [Machine.step] at stepped
      split_ifs at stepped with quote
      · cases stepped
        rw [quote, List.append_assoc, List.cons_append, ← quoteField_eq]
        exact .quoteSeen ahead
      · rw [eq_of_add stepped, List.append_assoc, List.cons_append]
        have next : doubled field.reverse ++ [c] = doubled (c :: field).reverse := by
          simp [doubled, quote]
        rw [next]
        exact .quoted ahead
    | @quoteSeen size fields before field ahead =>
      have inside := inside State.noConfusion
      simp only [Machine.step, inside, Bool.false_eq_true, if_false] at stepped
      split_ifs at stepped with quote other
      · have next : quoteField field.reverse ++ [c]
            = .scalar '"' :: doubled (c :: field).reverse := by
          simp [quoteField_eq, doubled, quote]
        rw [eq_of_add stepped, List.append_assoc, next]
        exact .quoted ahead
      · cases stepped
        rw [other]
        exact .fieldStart (ahead.next (.quoted _)) (by simp)
    | lineEnd number spelled =>
      simp [Machine.step, inside State.noConfusion] at stepped

/-- The reader takes no text but one that spells the records that it finds. -/
theorem spelled_of_readAll (proper : Separates separator) {records : List (List Text)}
    (read : readAll? separator m rest = some records) (fed : Fed separator m text) :
    Spelled separator (text ++ rest) records := by
  induction rest generalizing m text records with
  | nil =>
    rw [List.append_nil]
    by_cases begun : m.state = .recordStart
    · rw [fed.begun.mp begun]
      simp only [readAll?, begun, Option.some.injEq] at read
      exact read ▸ .nothing
    · have outside : m.state ≠ .quoted := by
        intro quoted
        simp [readAll?, quoted] at read
      have last : readAll? separator m (carriages 0) = _ := readAll_last proper outside (.inl begun)
      obtain ⟨written, number, rfl, spelled⟩ := fed.record outside
      obtain rfl := Option.some.inj (last.symm.trans read)
      exact .last number spelled fun empty => begun (fed.begun.mpr empty)
  | cons c rest ih =>
    cases stepped : m.step separator c with
    | none => simp [readAll?, stepped] at read
    | some n =>
      rw [readAll_cons stepped] at read
      split_ifs at read with ends
      · obtain ⟨rfl, outside⟩ := ends
        obtain ⟨records, later, rfl⟩ := Option.map_eq_some_iff.mp read
        have unquoted : m.state ≠ .quoted := fun quoted => outside (state_of_feed quoted stepped)
        obtain ⟨written, number, rfl, spelled⟩ := fed.record unquoted
        obtain ⟨k, same, _, kept⟩ := step_end proper unquoted (c := .scalar '\n') rfl
        obtain rfl : k = n := Option.some.inj (same.symm.trans stepped)
        rw [kept]
        exact .record number spelled (ih later .start)
      · have next := ih read (fed.step proper stepped fun feed => by
          by_contra outside
          exact ends ⟨feed, outside⟩)
        simpa using next

/-! Lines. The reader is fed lines, and behind a record that it gave up it goes on with the next
line. -/

def allFields? (records : List (Option Record)) : Option (List (List Text)) :=
  records.mapM (Option.map Record.fields)

theorem allFields_cons (r : Option Record) (records : List (Option Record)) :
    allFields? (r :: records)
      = (r.map Record.fields).bind fun fields => (allFields? records).map (fields :: ·) := by
  rw [allFields?, List.mapM_cons, allFields?]
  cases r.map Record.fields with
  | none => rfl
  | some fields => cases records.mapM (Option.map Record.fields) <;> rfl

theorem allFields_eq_some_iff {records : List (Option Record)} {found : List (List Text)} :
    allFields? records = some found ↔
      none ∉ records ∧ found = (records.filterMap id).map Record.fields := by
  induction records generalizing found with
  | nil => simp [allFields?, eq_comm]
  | cons r records ih =>
    rw [allFields_cons]
    cases r with
    | none => simp
    | some r =>
      simp only [Option.map_some, Option.bind_some, Option.map_eq_some_iff, ih]
      constructor
      · rintro ⟨_, ⟨whole, rfl⟩, rfl⟩
        exact ⟨by simpa using whole, rfl⟩
      · rintro ⟨whole, rfl⟩
        exact ⟨_, ⟨by simpa using whole, rfl⟩, rfl⟩

/-- The latest line goes on in front of the rest. -/
theorem linesFrom_feed_head (current : Text) (c : CodePoint) (rest : Text) :
    ∃ more lines, linesFrom .feed current (c :: rest) = (current.reverse ++ c :: more) :: lines := by
  induction rest generalizing current c with
  | nil =>
    rw [linesFrom_feed_cons]
    split_ifs
    · exact ⟨[], _, by rw [List.reverse_cons]⟩
    · exact ⟨[], [], by simp [linesFrom]⟩
  | cons d rest ih =>
    rw [linesFrom_feed_cons]
    split_ifs
    · exact ⟨[], _, by rw [List.reverse_cons]⟩
    · obtain ⟨more, lines, same⟩ := ih (c :: current) d
      exact ⟨d :: more, lines, by simpa using same⟩

theorem steps_begun (shown : text ≠ []) (stepped : m.steps separator text = some n) :
    n.state ≠ .recordStart := by
  rw [← List.dropLast_concat_getLast shown, steps_append_bind] at stepped
  obtain ⟨k, _, last⟩ := Option.bind_eq_some_iff.mp stepped
  rw [steps_cons] at last
  obtain ⟨k', last, same⟩ := Option.bind_eq_some_iff.mp last
  cases same
  exact step_begun last

theorem takeLine_concat {k : Machine} (stepped : m.steps separator text = some k) (c : CodePoint) :
    m.takeLine separator (text ++ [c]) = (k.step separator c).map Machine.endLine := by
  rw [takeLine_append, stepped, Option.bind_some, takeLine_eq, steps_cons]
  cases k.step separator c <;> rfl

/-- What is read line by line is what is read character by character. -/
theorem allFields_lines {current : Text} {k : Machine} {first line : Nat}
    (begun : m.state = .recordStart ∨ m.state = .quoted)
    (stepped : m.steps separator current.reverse = some k) :
    allFields? (records separator m first line (linesFrom .feed current text))
      = readAll? separator k text := by
  induction text generalizing m k current first line with
  | nil =>
    by_cases shown : current = []
    · subst shown
      cases stepped
      obtain start | quoted := begun
      · simp [linesFrom, records, start, readAll?, allFields?]
      · simp [linesFrom, records, quoted, readAll?, allFields_cons]
    · have inside := steps_begun (by simpa using shown) stepped
      have taken := @takeLine_eq separator m current.reverse
      rw [stepped, Option.map_some] at taken
      have last : linesFrom .feed current [] = [current.reverse] := by simp [linesFrom, shown]
      rw [last, records, taken]
      by_cases quoted : k.state = .quoted
      · have still : k.endLine = k := by simp [Machine.endLine, quoted]
        simp [still, quoted, records, readAll?, allFields_cons]
      · simp only [endLine_unquoted quoted, if_true, records, Machine.start]
        cases state : k.state <;> simp [state, readAll?, allFields?] at quoted inside ⊢
  | cons c rest ih =>
    cases next : k.step separator c with
    | none =>
      obtain ⟨more, lines, cut⟩ := linesFrom_feed_head current c rest
      have lost : m.takeLine separator (current.reverse ++ c :: more) = none := by
        rw [takeLine_append, stepped, Option.bind_some, Machine.takeLine, next]
      rw [cut, records, lost, readAll?, next]
      simp [allFields_cons]
    | some n =>
      rw [linesFrom_feed_cons, readAll_cons next]
      by_cases feed : c = .scalar '\n'
      · rw [if_pos feed, records, List.reverse_cons, takeLine_concat stepped, next, Option.map_some]
        by_cases quoted : n.state = .quoted
        · have still : n.endLine = n := by simp [Machine.endLine, quoted]
          simp only [still, quoted, feed, reduceCtorEq, if_false, ne_eq, not_true, and_false]
          exact ih (.inr quoted) rfl
        · simp only [endLine_unquoted quoted, feed, quoted, ne_eq, not_false_eq_true, and_true, if_true,
            allFields_cons, Option.map_some, Option.bind_some]
          rw [ih (.inl rfl) rfl]
      · rw [if_neg feed, if_neg (by simp [feed])]
        refine ih begun ?_
        rw [List.reverse_cons, steps_append_bind, stepped, Option.bind_some, steps_cons, next]
        rfl

def Within (records : List (List Text)) : Prop :=
  ∀ fields ∈ records, ∀ field ∈ fields, field.length ≤ fieldLimit

instance (records : List (List Text)) : Decidable (Within records) :=
  inferInstanceAs (Decidable (∀ fields ∈ records, ∀ field ∈ fields, _))

/-- The reader gives up no record of a text exactly if the text spells records whose fields are not too
long. -/
theorem exists_spelled_iff (proper : Separates separator) :
    (∃ found, Spelled separator text found ∧ Within found) ↔
      none ∉ records separator .start 1 1 (lines .feed text) := by
  have cut : allFields? (records separator .start 1 1 (lines .feed text))
      = readAll? separator .start text := allFields_lines (.inl rfl) rfl
  constructor
  · rintro ⟨found, spelled, short⟩
    exact (allFields_eq_some_iff.mp (cut.trans (readAll_of_spelled proper spelled short))).1
  · intro whole
    have read := cut.symm.trans (allFields_eq_some_iff.mpr ⟨whole, rfl⟩)
    refine ⟨_, spelled_of_readAll proper read .start, fun fields here => ?_⟩
    obtain ⟨r, there, rfl⟩ := List.mem_map.mp here
    exact length_le_of_mem_records .start (by simpa using there)

/-- Of a text that spells records the reader finds them all if their fields are not too long, and else
it gives up one of them. -/
theorem records_of_spelled (proper : Separates separator) {found : List (List Text)}
    (spelled : Spelled separator text found) :
    let read := records separator .start 1 1 (lines .feed text)
    (none ∉ read ↔ Within found) ∧
      (Within found → (read.filterMap id).map Record.fields = found) := by
  intro read
  have cut : allFields? read = readAll? separator .start text := allFields_lines (.inl rfl) rfl
  by_cases short : Within found
  · have whole := allFields_eq_some_iff.mp (cut.trans (readAll_of_spelled proper spelled short))
    exact ⟨iff_of_true whole.1 short, fun _ => whole.2.symm⟩
  · have lost := cut.trans (readAll_of_long proper spelled short)
    refine ⟨iff_of_false (fun whole => ?_) short, fun fits => absurd fits short⟩
    cases lost.symm.trans (allFields_eq_some_iff.mpr ⟨whole, rfl⟩)

end Intake.Table
