import Intake.Proofs.ContactFile
import Intake.Proofs.Run.Batches

/-! Where the entries of an error log point. An entry counts the records of the file up to the one
whose delivery was rejected. That is the line on which this record begins if each line before it
begins a record, too, and it is short of that line by those that do not. -/
namespace Intake

/-- An entry of the error log stems from the rejection of a row. -/
theorem Job.entry?_eq_some {plan : Job} {reply : Nat × Reply} {entry : ErrorEntry}
    (made : plan.entry? reply = some entry) :
    ∃ failure, reply = (reply.1, .rejected failure) ∧ entry.line = reply.1 + 2 ∧
      entry.message = failure.text := by
  obtain ⟨row, reply⟩ := reply
  cases reply with
  | rejected failure =>
    simp only [Job.entry?, Option.some.injEq] at made
    subst made
    exact ⟨failure, rfl, rfl, rfl⟩
  | accepted | interrupted => simp [Job.entry?] at made

namespace Table

/-- No line before a line is silent exactly if a record begins on each of them. -/
theorem silentBefore_eq_zero {records : List Record} {line : Nat} :
    silentBefore records line = 0 ↔
      ∀ n, 0 < n → n < line → n ∈ records.map Record.line := by
  simp only [silentBefore, List.length_eq_zero_iff, List.filter_eq_nil_iff, List.mem_range'_1,
    decide_not, Bool.not_eq_true', decide_eq_false_iff_not, not_not]
  constructor
  · intro all n low high
    exact all n ⟨low, by omega⟩
  · intro all n within
    exact all n within.1 (by omega)

end Table

namespace Engine

/-- Each entry of the error log of a run over a file that was read from a text stems from a rejected
row. Its line is short of the one on which the record of that row begins by the lines before this
one on which no record begins, so that both agree exactly if there are none. -/
theorem start_error_lines (before : Engine) (job : Job) (row : Int) {mapping : Mapping}
    {dropped : List Text} (idle : before.state.status.isActive = false)
    (valid : job.mapping.validate job.file.headers = .ok (mapping, dropped)) {name t : Text}
    {separator : CodePoint} {previewSize : Int}
    (parsed : ContactFile.parse name t separator previewSize = .ok job.file) {moves : List Move}
    {e : Engine} (reached : Moves (before.start job row).2 moves e) :
    ∃ width header rows,
      ContactFile.recordsOf .feed separator (t.dropWhile (· = Text.byteOrderMark))
        = .ok (width, header :: rows) ∧
      job.file.headers = ContactFile.fit width header.fields ∧
      job.file.rows = rows.map (fun row => ContactFile.fit width row.fields) ∧
      ∀ entry ∈ e.state.errors, ∃ index record failure,
        (index, .rejected failure) ∈ before.repliesSince e ∧ entry.message = failure.text ∧
        rows[index]? = some record ∧
        (Table.records separator .start record.line record.line
          ((Table.lines .feed t).drop (record.line - 1))).head? = some (some record) ∧
        (record.line : Int)
          = entry.line + Table.silentBefore (header :: rows) record.line ∧
        (entry.line = record.line ↔ ∀ n, 0 < n → n < record.line →
          n ∈ (header :: rows).map Table.Record.line) := by
  obtain ⟨width, header, rows, read, _, headed, fitted⟩ := ContactFile.rows_of_parse parsed
  refine ⟨width, header, rows, read, headed, fitted, fun entry logged => ?_⟩
  obtain ⟨e₀, begun, started⟩ := start_valid before job row idle valid
  rw [started] at reached
  obtain ⟨new, course⟩ := Course.of_moves begun reached
  obtain ⟨reach, tally⟩ := course.tallied
  rw [course.ledger.errors, ← course.repliesSince] at logged
  obtain ⟨reply, given, made⟩ := List.mem_filterMap.mp (List.mem_of_mem_take logged)
  obtain ⟨failure, same, line, message⟩ := Job.entry?_eq_some made
  have within : reply.1 < rows.length := by
    have due : reply.1 ∈ (planOf job mapping).dueRows (resumeRow job.file row) reach := by
      rw [course.repliesSince, List.mem_reverse] at given
      rw [← tally.rows, List.map_reverse, List.mem_reverse, ← tally.ends]
      exact List.mem_append_right _ (List.mem_map_of_mem given)
    have inside := (course.placed.within tally.reaches).2
    have size := congrArg List.length fitted
    rw [List.length_map] at size
    have below := (Job.mem_dueRows.mp due).2.1
    simp only [planOf, ContactFile.totalRows] at inside
    omega
  have here : (header :: rows)[reply.1 + 1]? = some rows[reply.1] := by
    simp [within]
  obtain ⟨later, head⟩ := ContactFile.row_from_line read (List.getElem_mem within)
  have position := Table.line_eq (ContactFile.recordsOf_pairwise read)
    (ContactFile.line_pos_of_recordsOf read) here
  have behind : ∀ texts : List Text,
      texts.drop (rows[reply.1].line - 1) = texts.tail.drop (rows[reply.1].line - 2) := by
    intro texts
    rw [List.drop_tail]
    congr 1
    omega
  refine ⟨reply.1, rows[reply.1], failure, same ▸ given, message, by simp [within], ?_, ?_, ?_⟩
  · rwa [behind, Table.tail_lines_unmarked, ← behind] at head
  · omega
  · rw [← Table.silentBefore_eq_zero]
    omega

def spannedText : Text := "email,name\nann@x.io,\"Ann\nLee\"\nbob@x.io,Bob\n"

def spannedRecords : List Table.Record :=
  [⟨1, ["email", "name"]⟩, ⟨2, ["ann@x.io", "Ann\nLee"]⟩, ⟨4, ["bob@x.io", "Bob"]⟩]

def gappedText : Text := "email\n\nann@x.io\n"

def jobOf (file : ContactFile) : Job := ⟨file, [(Attribute.emailKey, "email")], [], .own⟩

/-- In a run over the spanned text whose second row is rejected, the entry of that row is short by
one line. -/
theorem start_error_lines_sample :
    ∃ file moves e, ContactFile.parse "people.csv" spannedText (.scalar ',') 15 = .ok file ∧
      Moves (sample.start (jobOf file) 0).2 moves e ∧ e.state.errors.map (·.line) = [3] ∧
      ∀ entry ∈ e.state.errors, ∃ record ∈ spannedRecords,
        (record.line : Int) = entry.line + Table.silentBefore spannedRecords record.line := by
  let rejection : Move := .answer (.rejected ⟨"RowSubmissionError", "mailbox full"⟩)
  let moves : List Move := [.answer .accepted, .acknowledge none, rejection]
  let file : ContactFile :=
    ⟨"people.csv", ["email", "name"], [["ann@x.io", "Ann\nLee"], ["bob@x.io", "Bob"]], 15⟩
  have parsed : ContactFile.parse "people.csv" spannedText (.scalar ',') 15 = .ok file := by
    rfl
  have valid : (jobOf file).mapping.validate (jobOf file).file.headers
      = .ok ((jobOf file).mapping, []) := by
    rfl
  have logged : ((sample.start (jobOf file) 0).2.after? moves).map (·.state.errors.map (·.line))
      = some [3] := by
    decide +kernel
  obtain ⟨e, after, lines⟩ := Option.map_eq_some_iff.mp logged
  have reached := reaches_iff.mpr after
  obtain ⟨width, header, rows, read, _, _, entries⟩ :=
    start_error_lines sample (jobOf file) 0 rfl valid parsed reached
  have found : ContactFile.recordsOf .feed (.scalar ',')
      (spannedText.dropWhile (· = Text.byteOrderMark)) = .ok (2, spannedRecords) := by
    rfl
  have same : spannedRecords = header :: rows :=
    (Prod.mk.inj (Except.ok.inj (found.symm.trans read))).2
  refine ⟨file, moves, e, parsed, reached, lines, fun entry member => ?_⟩
  obtain ⟨_, record, _, _, _, there, _, position, _⟩ := entries entry member
  rw [same]
  exact ⟨record, List.mem_cons_of_mem _ (List.mem_of_getElem? there), position⟩

/-- In a run over the text with a blank line the entry of the rejected row says line 2, though its
record begins on line 3. -/
theorem blank_line_uncounted :
    ∃ file moves e header record,
      ContactFile.parse "people.csv" gappedText (.scalar ',') 15 = .ok file ∧
      Moves (sample.start (jobOf file) 0).2 moves e ∧ e.stage = .ended .finished ∧
      Table.records (.scalar ',') .start 1 1 (Table.lines .feed gappedText)
        = [some header, some ⟨2, []⟩, some record] ∧
      file.headers = header.fields ∧ file.rows = [record.fields] ∧ record.line = 3 ∧
      e.state.errors.map (·.line) = [2] := by
  let rejection : Move := .answer (.rejected ⟨"RowSubmissionError", "mailbox full"⟩)
  let moves : List Move :=
    [rejection, .acknowledge none, .acknowledge none, .proceed, .acknowledge none]
  let file : ContactFile := ⟨"people.csv", ["email"], [["ann@x.io"]], 15⟩
  have ended : ((sample.start (jobOf file) 0).2.after? moves).map
      (fun e => (e.stage.outcome?, e.state.errors.map (·.line))) = some (some .finished, [2]) := by
    decide +kernel
  obtain ⟨e, after, shown⟩ := Option.map_eq_some_iff.mp ended
  simp only [Prod.mk.injEq] at shown
  exact ⟨file, moves, e, ⟨1, ["email"]⟩, ⟨3, ["ann@x.io"]⟩, rfl, reaches_iff.mpr after,
    Stage.outcome?_eq_some.mp shown.1, rfl, rfl, rfl, rfl, shown.2⟩

end Engine
end Intake
