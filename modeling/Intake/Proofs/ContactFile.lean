import Intake.ContactFile.Loader
import Intake.Proofs.Table.LineEnds
import Mathlib.Data.List.Pairwise
import Mathlib.Data.List.Range
import Mathlib.Data.List.Nodup

/-! Where the records of a table begin. Each record is what the reader makes of the lines from its own
on, records begin on later and later lines, and the number of a line is the number of records that
begin before it and of lines before it on which none begins. -/
namespace Intake

namespace Table
variable {separator : CodePoint} {m : Machine} {first line : Nat} {texts : List Text} {r : Record}

/-- A record of some lines either is the one in the machine, or it begins on one of them. -/
theorem head_of_mem_records (here : some r ∈ records separator m first line texts) :
    r.line = first ∧ (records separator m first line texts).head? = some (some r) ∨
      line < r.line ∧
        (records separator .start r.line r.line (texts.drop (r.line - line))).head?
          = some (some r) := by
  -- A later record lies in the rest, where it is the first one or again a later one.
  have later {line : Nat} {text : Text} {rest : List Text}
      (found : r.line = line + 1 ∧
          (records separator .start (line + 1) (line + 1) rest).head? = some (some r) ∨
        line + 1 < r.line ∧
          (records separator .start r.line r.line (rest.drop (r.line - (line + 1)))).head?
            = some (some r)) :
      line < r.line ∧
        (records separator .start r.line r.line ((text :: rest).drop (r.line - line))).head?
          = some (some r) := by
    rcases found with ⟨next, head⟩ | ⟨after, head⟩
    · rw [next]
      simpa using head
    · obtain ⟨gap, there⟩ := Nat.exists_eq_add_of_lt after
      have skipped : r.line - line = r.line - (line + 1) + 1 := by omega
      exact ⟨by omega, by simpa [skipped] using head⟩
  induction texts generalizing m first line with
  | nil => simp [records] at here
  | cons text rest ih =>
    simp only [records] at here ⊢
    cases taken : m.takeLine separator text with
    | none =>
      simp only [taken, List.mem_cons, reduceCtorEq, false_or] at here
      exact .inr (later (ih here))
    | some next =>
      simp only [taken] at here ⊢
      split_ifs at here ⊢ with whole
      · rcases List.mem_cons.mp here with same | here
        · cases same
          exact .inl ⟨rfl, rfl⟩
        · exact .inr (later (ih here))
      · rcases ih here with ⟨same, head⟩ | ⟨after, head⟩
        · exact .inl ⟨same, head⟩
        · exact .inr (later (.inr ⟨after, head⟩))

/-- A record of a text is the first one from its own line on. -/
theorem records_from_line (here : some r ∈ records separator .start 1 1 texts) :
    0 < r.line ∧
      (records separator .start r.line r.line (texts.drop (r.line - 1))).head?
        = some (some r) := by
  rcases head_of_mem_records here with ⟨same, head⟩ | ⟨after, head⟩
  · rw [same]
    exact ⟨Nat.one_pos, head⟩
  · exact ⟨by omega, head⟩

theorem le_line_of_mem_records (here : some r ∈ records separator m first line texts)
    (begun : first ≤ line) : first ≤ r.line := by
  rcases head_of_mem_records here with ⟨same, _⟩ | ⟨after, _⟩ <;> omega

theorem records_pairwise (begun : first ≤ line) :
    ((records separator m first line texts).filterMap id).Pairwise (·.line < ·.line) := by
  induction texts generalizing m first line with
  | nil =>
    unfold records
    split_ifs <;> simp
  | cons text rest ih =>
    unfold records
    cases m.takeLine separator text with
    | none => simpa using ih (Nat.le_refl (line + 1))
    | some next =>
      dsimp only
      split_ifs with whole
      · simp only [List.filterMap_cons, id, List.pairwise_cons]
        refine ⟨fun r here => ?_, ih (Nat.le_refl (line + 1))⟩
        have after := le_line_of_mem_records (by simpa using here) (Nat.le_refl (line + 1))
        omega
      · exact ih (by omega)

private theorem mem_take_iff {numbers : List Nat} (sorted : numbers.Pairwise (· < ·)) {index : Nat}
    (within : index < numbers.length) {n : Nat} :
    n ∈ numbers.take index ↔ n ∈ numbers ∧ n < numbers[index] := by
  constructor
  · intro member
    obtain ⟨i, bound, rfl⟩ := List.mem_take_iff_getElem.mp member
    exact ⟨List.getElem_mem _, List.pairwise_iff_getElem.mp sorted i index _ within (by omega)⟩
  · rintro ⟨member, less⟩
    obtain ⟨i, bound, rfl⟩ := List.mem_iff_getElem.mp member
    apply List.mem_take_iff_getElem.mpr
    refine ⟨i, ?_, rfl⟩
    by_contra late
    rcases Nat.lt_or_eq_of_le (show index ≤ i by omega) with after | rfl
    · have := List.pairwise_iff_getElem.mp sorted index i within bound after
      omega
    · omega

private theorem filter_range_eq_take {numbers : List Nat} (sorted : numbers.Pairwise (· < ·))
    (positive : ∀ n ∈ numbers, 0 < n) {index : Nat} (within : index < numbers.length) :
    (List.range' 1 (numbers[index] - 1)).filter (· ∈ numbers) = numbers.take index := by
  have earlier := sorted.sublist (List.take_sublist index numbers)
  refine List.Perm.eq_of_pairwise (fun a b _ _ less more => ?_)
    (List.Pairwise.filter _ List.pairwise_lt_range') earlier ?_
  · omega
  · have distinct := earlier.imp Nat.ne_of_lt
    apply (List.perm_ext_iff_of_nodup (List.Nodup.filter _ List.nodup_range') distinct).mpr
    intro n
    simp only [List.mem_filter, decide_eq_true_eq, List.mem_range'_1, mem_take_iff sorted within]
    constructor
    · rintro ⟨⟨_, below⟩, member⟩
      exact ⟨member, by omega⟩
    · rintro ⟨member, less⟩
      have := positive n member
      exact ⟨by omega, member⟩

def silentBefore (records : List Record) (line : Nat) : Nat :=
  ((List.range' 1 (line - 1)).filter (· ∉ records.map Record.line)).length

/-- Before the line of a record begin the records before it, one on each line that is not silent. -/
theorem line_eq {records : List Record} (sorted : records.Pairwise (·.line < ·.line))
    (positive : ∀ r ∈ records, 0 < r.line) {index : Nat} (here : records[index]? = some r) :
    r.line = index + 1 + silentBefore records r.line := by
  obtain ⟨within, rfl⟩ := List.getElem?_eq_some_iff.mp here
  have speaking := filter_range_eq_take (List.pairwise_map.mpr sorted) (by simpa using positive)
    (show index < (records.map Record.line).length by simpa using within)
  have split := List.length_eq_length_filter_add (l := List.range' 1 (records[index].line - 1))
    (fun n => decide (n ∈ records.map Record.line))
  rw [List.getElem_map] at speaking
  rw [speaking, List.length_range', List.length_take, List.length_map] at split
  have first := positive _ (List.getElem_mem within)
  simp only [silentBefore, decide_not]
  omega

private theorem tail_linesFrom (current other t : Text) :
    (linesFrom .feed current t).tail = (linesFrom .feed other t).tail := by
  by_cases blank : t = []
  · subst blank
    unfold linesFrom
    split_ifs <;> rfl
  · obtain ⟨_, _, _, _, cut⟩ := exists_line .feed blank
    rw [cut, cut]
    rfl

/-- Byte-order marks at the start of a text are part of its first line. -/
theorem tail_lines_unmarked (t : Text) :
    (lines .feed (t.dropWhile (· = Text.byteOrderMark))).tail = (lines .feed t).tail := by
  induction t with
  | nil => rfl
  | cons c rest ih =>
    by_cases marked : c = Text.byteOrderMark
    · subst marked
      rw [List.dropWhile_cons_of_pos (by simp), ih]
      exact tail_linesFrom _ _ _
    · rw [List.dropWhile_cons_of_neg (by simpa using marked)]

end Table

namespace ContactFile
variable {ends : Table.LineEnds} {separator : CodePoint} {t : Text}

/-- Taking a byte-order mark off the first record changes neither where the records begin nor any
later one. -/
theorem countedRecords_eq {records : List (Option Table.Record)} {found : List Table.Record}
    (counted : countedRecords records = .ok found) :
    found.map Table.Record.line
        = ((records.filterMap id).filter Table.Record.counts).map Table.Record.line ∧
      found.tail = ((records.filterMap id).filter Table.Record.counts).tail := by
  unfold countedRecords at counted
  dsimp only at counted
  split at counted
  · rename_i first _ line field fields rest same
    split_ifs at counted
    · cases unmarked : Table.unmark? field with
      | none => simp [unmarked] at counted
      | some field =>
        simp only [unmarked, Except.ok.injEq] at counted
        rw [same, ← counted]
        exact ⟨rfl, rfl⟩
    · simp only [Except.ok.injEq] at counted
      exact ⟨by rw [counted], by rw [counted]⟩
  · simp only [Except.ok.injEq] at counted
    exact ⟨by rw [counted], by rw [counted]⟩

/-- The records of a text are those that count, with a mark taken off the first, of which only the
first can be missing. -/
theorem recordsOf_eq_ok {width : Nat} {found : List Table.Record}
    (read : recordsOf ends separator t = .ok (width, found)) :
    ∃ counted, countedRecords (Table.records separator .start 1 1 (Table.lines ends t)) = .ok counted ∧
      width = (counted.head?.map (·.fields.length)).getD 0 ∧
      found = counted.filter Table.Record.counts := by
  unfold recordsOf at read
  cases same : countedRecords (Table.records separator .start 1 1 (Table.lines ends t)) with
  | error error => simp [same, bind, Except.bind] at read
  | ok counted =>
    simp only [same, bind, Except.bind, pure, Except.pure, Except.ok.injEq, Prod.mk.injEq] at read
    exact ⟨counted, rfl, read.1.symm, read.2.symm⟩

theorem recordsOf_pairwise {width : Nat} {found : List Table.Record}
    (read : recordsOf ends separator t = .ok (width, found)) : found.Pairwise (·.line < ·.line) := by
  obtain ⟨_, counted, _, rfl⟩ := recordsOf_eq_ok read
  have sorted : (((Table.records separator .start 1 1 (Table.lines ends t)).filterMap id).filter
      Table.Record.counts).Pairwise (·.line < ·.line) :=
    (Table.records_pairwise (Nat.le_refl 1)).filter _
  refine List.Pairwise.filter _ ?_
  rw [← List.pairwise_map (f := Table.Record.line)] at sorted ⊢
  rw [(countedRecords_eq counted).1]
  exact sorted

theorem line_pos_of_recordsOf {width : Nat} {found : List Table.Record}
    (read : recordsOf ends separator t = .ok (width, found)) : ∀ r ∈ found, 0 < r.line := by
  obtain ⟨_, counted, _, rfl⟩ := recordsOf_eq_ok read
  intro r member
  have here := List.mem_map_of_mem (f := Table.Record.line) (List.mem_of_mem_filter member)
  rw [(countedRecords_eq counted).1] at here
  obtain ⟨other, there, same⟩ := List.mem_map.mp here
  rw [← same]
  exact (Table.records_from_line (by simpa using List.mem_of_mem_filter there)).1

/-- A record behind the header is what the reader makes of the lines from its own on. -/
theorem row_from_line {width : Nat} {header row : Table.Record} {rows : List Table.Record}
    (read : recordsOf ends separator t = .ok (width, header :: rows)) (member : row ∈ rows) :
    1 < row.line ∧ (Table.records separator .start row.line row.line
      ((Table.lines ends t).drop (row.line - 1))).head? = some (some row) := by
  have header_pos := line_pos_of_recordsOf read header (by simp)
  have after := List.rel_of_pairwise_cons (recordsOf_pairwise read) member
  obtain ⟨counted, read, _, same⟩ := recordsOf_eq_ok read
  -- Whether or not the first record is missing, a row is one behind it.
  have here : row ∈ counted.tail := by
    cases counted with
    | nil => simp at same
    | cons first later =>
      rw [List.filter_cons] at same
      split_ifs at same
      · obtain ⟨_, rfl⟩ := List.cons.inj same
        exact List.mem_of_mem_filter member
      · exact List.mem_of_mem_filter (same ▸ List.mem_cons_of_mem header member)
  rw [(countedRecords_eq read).2] at here
  have there := List.mem_of_mem_filter (List.mem_of_mem_tail here)
  exact ⟨by omega, (Table.records_from_line (by simpa using there)).2⟩

/-- The rows of a file that was read are the records behind its header. -/
theorem rows_of_parse {name : Text} {previewSize : Int} {file : ContactFile}
    (parsed : parse name t separator previewSize = .ok file) :
    ∃ width header rows,
      recordsOf .feed separator (t.dropWhile (· = Text.byteOrderMark)) = .ok (width, header :: rows) ∧
      file.name = name ∧ file.headers = fit width header.fields ∧
      file.rows = rows.map fun row => fit width row.fields := by
  unfold parse ofText at parsed
  cases read : recordsOf .feed separator (t.dropWhile (· = Text.byteOrderMark)) with
  | error error => simp [read, bind, Except.bind] at parsed
  | ok found =>
    obtain ⟨width, found⟩ := found
    cases found with
    | nil => simp [read, bind, Except.bind, throw, throwThe, MonadExceptOf.throw] at parsed
    | cons header rows =>
      simp only [read, bind, Except.bind, pure, Except.pure, Except.ok.injEq] at parsed
      subst parsed
      exact ⟨width, header, rows, rfl, rfl, rfl, rfl⟩

theorem parse_name {name : Text} {previewSize : Int} {file : ContactFile}
    (parsed : parse name t separator previewSize = .ok file) : file.name = name := by
  obtain ⟨_, _, _, _, named, _⟩ := rows_of_parse parsed
  exact named

theorem length_fit (width : Nat) (row : List Text) : (fit width row).length = width := by
  simp only [fit, List.length_append, List.length_take, List.length_replicate]
  omega

theorem fit_self {width : Nat} {row : List Text} (same : row.length = width) :
    fit width row = row := by
  simp [fit, ← same]

end ContactFile
end Intake
