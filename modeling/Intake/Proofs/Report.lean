import Intake.Proofs.ContactFile
import Intake.Proofs.ContactFile.Sources
import Intake.Proofs.Files.Tree
import Intake.Proofs.Json.Plain
import Intake.Proofs.Table.Written
import Intake.Report

/-! Reports that are read back. A report with separated fields is a table of the entries below the
names of its columns, and reading its file gives a row for each entry, with its line, email and message
as they are, exactly if each of them is legible. -/
namespace Intake

namespace ContactFile
variable {separator : CodePoint} {width : Nat} {rows : List (List Text)}

/-- The fields of a row that was fitted are fields of the row, or empty. -/
theorem mem_fit {row : List Text} {field : Text} (here : field ∈ fit width row) :
    field ∈ row ∨ field = [] := by
  rcases List.mem_append.mp here with kept | filled
  · exact .inl (List.mem_of_mem_take kept)
  · exact .inr (List.mem_replicate.mp filled).2

private theorem exists_first {row : List Text} (some : ¬ ∀ field ∈ row, Table.Legible separator field) :
    ∃ before field after, row = before ++ field :: after ∧
      (∀ field ∈ before, Table.Legible separator field) ∧ ¬ Table.Legible separator field := by
  have found : (row.find? fun field => ¬ Table.Legible separator field).isSome = true := by
    simpa using some
  obtain ⟨field, found⟩ := Option.isSome_iff_exists.mp found
  obtain ⟨torn, before, after, split, prior⟩ := List.find?_eq_some_iff_append.mp found
  exact ⟨before, field, after, split, by simpa using prior, by simpa using torn⟩

private theorem torn_row (proper : Table.Separates separator) {row : List Text}
    (same : row.length = width) (firm : ∀ field ∈ row.head?, CodePoint.scalar '\r' ∉ field)
    (illegible : ¬ ∀ field ∈ row, Table.Legible separator field)
    (short : ∀ field ∈ row, field.length ≤ Table.fieldLimit) (line : Nat) :
    ((Table.countedFields (Table.records separator .start line line
        (Table.lines .any (Table.write separator (row :: rows))))).map (fit width)).head?
      ≠ some row := by
  obtain ⟨before, field, after, rfl, prior, torn⟩ := exists_first illegible
  have fits := short field (by simp)
  rw [Table.Legible, not_and, Classical.not_imp] at torn
  obtain ⟨carriage, bare⟩ := torn fits
  have begun : before ≠ [] := by
    rintro rfl
    exact firm field rfl carriage
  obtain ⟨a, b, rfl, clear⟩ := List.eq_append_cons_of_mem carriage
  rw [List.length_append] at fits
  obtain ⟨later, counted⟩ := Table.countedFields_torn proper begun prior
    (Bool.eq_false_iff.mpr bare) clear (by omega) after rows line
  have room : (before ++ [a]).length ≤ width := by
    simp only [← same, List.length_append, List.length_cons, List.length_nil]
    omega
  rw [counted, List.map_cons, List.head?_cons, fit, List.take_of_length_le room, ne_eq,
    Option.some.injEq, List.append_assoc, List.append_cancel_left_eq]
  intro equal
  have cut := congrArg List.length (List.cons.inj equal).1
  simp at cut

/-- The rows of a written table are read as they were exactly if each field of them is legible, as
long as no carriage return stands in the first field of a row. -/
theorem fit_counted_iff (proper : Table.Separates separator) (wide : 2 ≤ width)
    (same : ∀ row ∈ rows, row.length = width)
    (firm : ∀ row ∈ rows, ∀ field ∈ row.head?, CodePoint.scalar '\r' ∉ field) (line : Nat) :
    (Table.countedFields (Table.records separator .start line line
        (Table.lines .any (Table.write separator rows)))).map (fit width) = rows ↔
      ∀ row ∈ rows, ∀ field ∈ row, Table.Legible separator field := by
  induction rows generalizing line with
  | nil => simp [Table.write, Table.lines, Table.linesFrom, Table.records, Table.countedFields,
      Table.Machine.start]
  | cons row rows ih =>
    rw [List.forall_mem_cons] at same firm
    by_cases legible : ∀ field ∈ row, Table.Legible separator field
    · obtain ⟨next, _, counted⟩ :=
        Table.countedFields_row proper (by omega) legible rows line
      rw [counted, List.map_cons, fit_self same.1, List.cons.injEq, and_iff_right rfl,
        ih same.2 firm.2, List.forall_mem_cons, and_iff_right legible]
    · refine ⟨fun equal => ?_, fun all => absurd (all row List.mem_cons_self) legible⟩
      have short : ∀ field ∈ row, field.length ≤ Table.fieldLimit := by
        intro field here
        have read : row ∈ (Table.countedFields (Table.records separator .start line line
            (Table.lines .any (Table.write separator (row :: rows))))).map (fit width) := by
          rw [equal]
          exact List.mem_cons_self
        obtain ⟨found, among, rfl⟩ := List.mem_map.mp read
        rcases mem_fit here with here | rfl
        · exact Table.length_le_of_mem_countedFields among field here
        · exact Nat.zero_le _
      exact absurd (congrArg List.head? equal) (torn_row proper same.1 firm.1 legible short line)

end ContactFile

theorem Path.name_expandHome {path home : Path} (shown : path.suffix ≠ []) :
    (path.expandHome home).name = path.name := by
  unfold expandHome
  split
  · rename_i rest root parts
    cases rest with
    | nil => exact absurd (by simp [suffix, name, parts, Text.cutLast?, Text.cut?]) shown
    | cons first rest => simp [name, parts, List.getLast?_cons]
  · rfl

namespace Report

def rowOf (entry : ErrorEntry) : List Text := [Text.ofInt entry.line, entry.email, entry.message]

def tableOf (entries : List ErrorEntry) : List (List Text) :=
  ["line", "email", "error"] :: entries.map rowOf

section
variable {separator : CodePoint} {entries : List ErrorEntry}

theorem separates_of_format {suffix : Text} (format : formatOf? suffix = some (.separated separator)) :
    Table.Separates separator ∧ separator.isScalar = true := by
  unfold formatOf? at format
  split_ifs at format <;> cases format
  · exact ⟨⟨rfl, by decide⟩, rfl⟩
  · exact ⟨⟨rfl, by decide⟩, rfl⟩

theorem separatorOf_of_format {suffix : Text}
    (format : formatOf? suffix.lower = some (.separated separator)) :
    ContactFile.separatorOf? suffix = some separator := by
  unfold formatOf? at format
  unfold ContactFile.separatorOf?
  split_ifs at format ⊢ <;> cases format <;> rfl

theorem contentOf_separated (title : Text) {text : Text} {bytes : Bytes}
    (written : Table.write separator (tableOf entries) = text)
    (encoded : Text.encodeUtf8 text = some bytes) :
    contentOf (.separated separator) title {} entries = (none, .bytes bytes) := by
  have whole : separatedText separator {} entries = .ok text := congrArg Except.ok written
  rw [contentOf, whole]
  simp only [encoded]

theorem isScalar_tableOf (proper : separator.isScalar = true)
    (scalar : ∀ entry ∈ entries, entry.email.isScalar = true ∧ entry.message.isScalar = true) :
    (Table.write separator (tableOf entries)).isScalar = true := by
  refine Table.isScalar_write proper ?_ ?_
  · simp [tableOf, rowOf]
  · rw [tableOf, List.forall_mem_cons, List.forall_mem_map]
    refine ⟨by decide, fun entry here => ?_⟩
    have line := Text.isScalar_of_isPlain (Text.isPlain_ofInt entry.line)
    simp only [rowOf, List.forall_mem_cons]
    exact ⟨line, (scalar entry here).1, (scalar entry here).2, nofun⟩

/-- No byte-order mark stands at the start of a report. -/
theorem decode_tableOf {bytes : Bytes}
    (decoded : Text.decodeUtf8 false bytes = some (Table.write separator (tableOf entries))) :
    ContactFile.decode .utf8 bytes = .ok (Table.write separator (tableOf entries)) := by
  have first : ∃ c rest, Table.write separator (tableOf entries) = c :: rest ∧
      c ≠ Text.byteOrderMark := by
    rw [tableOf, Table.write_cons (by decide), Table.recordText_cons, Table.writeField]
    split_ifs
    · exact ⟨.scalar '"', _, rfl, by decide⟩
    · exact ⟨.scalar 'l', _, rfl, by decide⟩
  obtain ⟨c, rest, whole, other⟩ := first
  rw [ContactFile.decode, decoded, whole]
  simp only [if_neg other]

/-- The table of a report, as a file is read, has the names of the columns as its header. -/
theorem ofText_tableOf (proper : Table.Separates separator) (name : Text) (previewSize : Int) :
    ∃ rows, ContactFile.ofText .any separator name previewSize
        (Table.write separator (tableOf entries))
      = .ok ⟨name, ["line", "email", "error"], rows, previewSize⟩ ∧
      (rows = entries.map rowOf ↔
        ∀ entry ∈ entries, ∀ field ∈ rowOf entry, Table.Legible separator field) := by
  have header : ∀ field ∈ (["line", "email", "error"] : List Text), Table.Legible separator field := by
    have clear : ∀ field ∈ (["line", "email", "error"] : List Text),
        field.length ≤ Table.fieldLimit ∧ CodePoint.scalar '\r' ∉ field := by decide
    exact fun field here => ⟨(clear field here).1, fun there => absurd there (clear field here).2⟩
  have firm : ∀ row ∈ entries.map rowOf, ∀ field ∈ row.head?, CodePoint.scalar '\r' ∉ field := by
    rw [List.forall_mem_map]
    rintro entry _ _ ⟨⟩ carriage
    have plain := List.all_eq_true.mp (Text.isPlain_ofInt entry.line) _ carriage
    cases plain
  obtain ⟨next, head, counted⟩ :=
    Table.countedFields_row proper (by decide) header (entries.map rowOf) 1
  have rows := ContactFile.fit_counted_iff proper (show 2 ≤ 3 by decide)
    (List.forall_mem_map.mpr fun _ _ => rfl) firm next
  rw [List.forall_mem_map] at rows
  exact ⟨_, ContactFile.ofText_headed name previewSize (List.cons_ne_nil _ _) (by decide) head counted,
    rows⟩

end
end Report

/-- A report is written to any path with the suffix of separated fields that leads to no directory, and
its file is then read with the names of the columns as the header, whatever emails and messages without
surrogates are reported. Its rows are the entries, one row for each, with the digits of the line, the
email and the message as they are, exactly if each of these is legible: not longer than a field may be,
and quoted in the report if a carriage return is in it. -/
theorem report_reads_back {tree made : FileTree} {home path : Path} {title : Text}
    {separator : CodePoint} {entries : List ErrorEntry} {location : Location}
    (format : Report.formatOf? path.suffix.lower = some (.separated separator))
    (done : tree.makeDirectory path.parent = .ok made)
    (found : made.locate (path.expandHome home) = .ok location)
    (free : made.node? location ≠ some .directory)
    (scalar : ∀ entry ∈ entries, entry.email.isScalar = true ∧ entry.message.isScalar = true) :
    ∃ next file, Report.write tree home path title [] entries = (.ok (), next) ∧
      ContactFile.load next (path.expandHome home) {} = .ok file ∧ file.name = path.name ∧
      file.headers = ["line", "email", "error"] ∧
      (file.rows = entries.map Report.rowOf ↔
        ∀ entry ∈ entries, ∀ field ∈ Report.rowOf entry, Table.Legible separator field) := by
  obtain ⟨proper, single⟩ := Report.separates_of_format format
  obtain ⟨bytes, encoded, decoded⟩ :=
    Text.decodeUtf8_encodeUtf8 (Report.isScalar_tableOf single scalar)
  have content := Report.contentOf_separated title rfl encoded
  have shown : path.suffix ≠ [] := by
    intro none
    rw [none] at format
    cases format
  have named := @Path.name_expandHome path home shown
  have suffix : (path.expandHome home).suffix = path.suffix := by
    rw [Path.suffix, Path.suffix, named]
  obtain ⟨rows, read, legible⟩ :=
    @Report.ofText_tableOf separator entries proper path.name ContactFile.defaultPreview
  refine ⟨made.place location (.file (.bytes bytes)),
    ⟨path.name, ["line", "email", "error"], rows, ContactFile.defaultPreview⟩, ?_, ?_, rfl, rfl, legible⟩
  · have layout : Report.layoutOf (.separated separator) [] = .ok {} := rfl
    have stored := FileTree.store_eq_place found free (.bytes bytes)
    simp only [Report.write, done, format, layout, content, stored]
  · have held := FileTree.read_place found free (.bytes bytes)
    rw [ContactFile.load, suffix, Report.separatorOf_of_format format]
    simp only [held, Content.encode, Report.decode_tableOf decoded, Option.getD_none, named]
    exact read

/-- Separators, quotes, blanks, an empty text, all line ends inside quotes, and a carriage return that
is quoted for another character. -/
theorem report_reads_back_quoted :
    let path := Path.ofText "logs/errors.TSV"
    let entries : List ErrorEntry := [⟨2, "a,b@x.io", "say \"no\""⟩, ⟨3, "", " x\ty "⟩,
      ⟨-4, "\n", "one\r\ntwo\nthree\r\t"⟩]
    ∃ next file, Report.write .empty ⟨[], []⟩ path "Errors" [] entries = (.ok (), next) ∧
      ContactFile.load next path {} = .ok file ∧
      file.rows = ([["2", "a,b@x.io", "say \"no\""], ["3", "", " x\ty "],
        ["-4", "\n", "one\r\ntwo\nthree\r\t"]] : List (List Text)) := by
  intro path entries
  have format : Report.formatOf? path.suffix.lower = some (.separated (.scalar '\t')) := by
    decide +kernel
  have made : FileTree.empty.makeDirectory path.parent
      = .ok (FileTree.empty.place [Text.ofString "logs"] .directory) := rfl
  have found : (FileTree.empty.place [Text.ofString "logs"] .directory).locate
      (path.expandHome ⟨[], []⟩) = .ok [Text.ofString "logs", Text.ofString "errors.TSV"] := by
    decide +kernel
  obtain ⟨next, file, written, loaded, _, _, rows⟩ := @report_reads_back _ _ ⟨[], []⟩ path "Errors" _
    entries _ format made found (by decide +kernel) (by decide +kernel)
  exact ⟨next, file, written, loaded, rows.mpr (by decide +kernel)⟩

/-- A carriage return that nothing else puts in quotes ends its row in the file, and what stands behind
it becomes another row. -/
theorem report_torn :
    let path := Path.ofText "errors.csv"
    let (result, next) :=
      Report.write .empty ⟨[], []⟩ path "Errors" [] [⟨1, "a@x.io", "x\ry"⟩]
    result = .ok () ∧ (ContactFile.load next path {}).toOption.map (·.rows)
      = some ([["1", "a@x.io", "x"], ["y", "", ""]] : List (List Text)) := by
  decide +kernel

end Intake
