import Intake.Calendar.Reader
import Intake.Proofs.Cell
import Intake.Proofs.ContactFile
import Intake.Proofs.Mapping
import Intake.Proofs.Table.Acceptance
import Mathlib.Data.List.Forall2

/-! A file is as wide in every row as in its header: a record that is too short is filled up, one that
is too long is cut, and no cell moves. Its rows are the records that are not blank, in their order, as
long as the reader gives none of them up. And whatever a mapping takes from such a file is there: a
contact has all the keys that were mapped. -/
namespace Intake

namespace Table

def isBlank (fields : List Text) : Bool := fields.length ≤ 1 && fields.all Text.isBlank

theorem counts_eq (r : Record) : r.counts = !isBlank r.fields := by
  obtain ⟨line, fields⟩ := r
  match fields with
  | [] => rfl
  | [field] => simp [Record.counts, isBlank]
  | _ :: _ :: _ => simp [Record.counts, isBlank]

theorem countedFields_eq (records : List (Option Record)) :
    countedFields records
      = ((records.filterMap id).map Record.fields).filter (!isBlank ·) := by
  rw [countedFields, List.filter_map]
  refine congrArg _ (List.filter_congr fun r _ => ?_)
  exact counts_eq r

end Table

namespace ContactFile
variable {name t : Text} {separator : CodePoint} {previewSize : Int} {file : ContactFile}
  {row record : List Text} {width : Nat}

structure Level (width : Nat) (record row : List Text) : Prop where
  length : row.length = width
  cells : ∀ column, column < width → row[column]? = some (record[column]?.getD [])

structure Heads (record headers : List Text) : Prop where
  width : headers.length = record.length
  first : headers.head? = record.head? ∨ headers.head? = record.head?.bind Table.unmark?
  others : headers.tail = record.tail

inductive Headed (headers : List Text) (rows : List (List Text)) : List (List Text) → Prop
  | first {header : List Text} {records : List (List Text)} (heads : Heads header headers)
      (shown : Table.isBlank headers = false)
      (level : List.Forall₂ (Level headers.length) records rows) :
      Headed headers rows (header :: records)
  | second {marked field : Text} {header : List Text} {records : List (List Text)}
      (unmarked : Table.unmark? marked = some field) (blank : field.isBlank = true)
      (narrow : headers.length = 1) (heads : Level 1 header headers)
      (level : List.Forall₂ (Level headers.length) records rows) :
      Headed headers rows ([marked] :: header :: records)

theorem level_fit (width : Nat) (record : List Text) : Level width record (fit width record) := by
  refine ⟨by simp only [fit, List.length_append, List.length_take, List.length_replicate]; omega, ?_⟩
  intro column within
  rw [fit, List.getElem?_append]
  split_ifs with inside
  · rw [List.length_take] at inside
    rw [List.getElem?_take_of_lt within, List.getElem?_eq_getElem (by omega)]
    rfl
  · rw [List.length_take] at inside ⊢
    rw [List.getElem?_eq_none (show record.length ≤ column by omega), List.getElem?_replicate,
      if_pos (by omega)]
    rfl

theorem length_of_level {records rows : List (List Text)}
    (level : List.Forall₂ (Level width) records rows) : ∀ row ∈ rows, row.length = width := by
  induction level with
  | nil => nofun
  | cons here _ ih => exact List.forall_mem_cons.mpr ⟨here.length, ih⟩

theorem Heads.refl (record : List Text) : Heads record record := ⟨rfl, .inl rfl, rfl⟩

/-- Only the first of the records that count may look different without its mark. -/
theorem heads_of_countedRecords {records : List (Option Table.Record)} {header : Table.Record}
    {rows : List Table.Record} (counted : countedRecords records = .ok (header :: rows)) :
    ∃ first, Table.countedFields records = first :: rows.map Table.Record.fields ∧
      Heads first header.fields ∧
      (header.counts = false → ∃ marked field, first = [marked] ∧
        Table.unmark? marked = some field ∧ field.isBlank = true) := by
  have whole (same : (records.filterMap id).filter Table.Record.counts = header :: rows) :
      ∃ first, Table.countedFields records = first :: rows.map Table.Record.fields ∧
        Heads first header.fields ∧
        (header.counts = false → ∃ marked field, first = [marked] ∧
          Table.unmark? marked = some field ∧ field.isBlank = true) := by
    have counts : header.counts = true := (List.mem_filter.mp (same ▸ List.mem_cons_self)).2
    exact ⟨header.fields, by rw [Table.countedFields, same, List.map_cons], .refl _, by simp [counts]⟩
  unfold countedRecords at counted
  dsimp only at counted
  split at counted
  · rename_i first _ line field fields rest same
    split_ifs at counted
    · cases unmarked : Table.unmark? field with
      | none => simp [unmarked] at counted
      | some field' =>
        simp only [unmarked, Except.ok.injEq, List.cons.injEq] at counted
        obtain ⟨rfl, rfl⟩ := counted
        refine ⟨field :: fields, by rw [Table.countedFields, same, List.map_cons],
          ⟨rfl, .inr unmarked.symm, rfl⟩, fun blank => ?_⟩
        cases fields with
        | nil => exact ⟨field, field', rfl, unmarked, by simpa [Table.Record.counts] using blank⟩
        | cons second fields => simp [Table.Record.counts] at blank
    · exact whole (Except.ok.inj counted)
  · exact whole (Except.ok.inj counted)

theorem level_fits (width : Nat) (records : List Table.Record) :
    List.Forall₂ (Level width) (records.map Table.Record.fields)
      (records.map fun record => fit width record.fields) := by
  rw [List.forall₂_map_left_iff, List.forall₂_map_right_iff, List.forall₂_same]
  exact fun record _ => level_fit width record.fields

/-- The records that count and stay so without a mark are those that count. -/
theorem filter_counts_of_countedRecords {records : List (Option Table.Record)}
    {header : Table.Record} {rows : List Table.Record}
    (counted : countedRecords records = .ok (header :: rows)) :
    rows.filter Table.Record.counts = rows := by
  have others := (countedRecords_eq counted).2
  rw [List.tail_cons] at others
  rw [List.filter_eq_self]
  intro row member
  rw [others] at member
  exact (List.mem_filter.mp (List.mem_of_mem_tail member)).2

/-- A file that was read has the headers and the rows of the records that count. -/
theorem headed_of_parse (parsed : parse name t separator previewSize = .ok file) :
    Headed file.headers file.rows (Table.countedFields (Table.records separator .start 1 1
      (Table.lines .feed (t.dropWhile (· = Text.byteOrderMark))))) := by
  obtain ⟨width, header, rows, read, _, headers, fitted⟩ := rows_of_parse parsed
  obtain ⟨counted, found, wide, same⟩ := recordsOf_eq_ok read
  cases counted with
  | nil => simp at same
  | cons first later =>
    obtain ⟨fields, listed, heads, marked⟩ := heads_of_countedRecords found
    have stay := filter_counts_of_countedRecords found
    simp only [List.head?_cons, Option.map_some, Option.getD_some] at wide
    rw [listed]
    cases counts : first.counts with
    | true =>
      rw [List.filter_cons_of_pos counts, stay] at same
      obtain ⟨rfl, rfl⟩ := List.cons.inj same
      rw [wide, fit_self rfl] at headers
      have width_eq : file.headers.length = width := by rw [headers, wide]
      refine .first (headers ▸ heads) ?_ ?_
      · rw [headers]
        simpa [Table.counts_eq] using counts
      · rw [fitted, width_eq]
        exact level_fits width rows
    | false =>
      rw [List.filter_cons_of_neg (by simp [counts]), stay] at same
      obtain ⟨mark, field, rfl, unmarked, blank⟩ := marked counts
      obtain rfl : width = 1 := wide.trans heads.width
      subst same
      have narrow : file.headers.length = 1 := by rw [headers, length_fit]
      refine .second unmarked blank narrow (headers ▸ level_fit 1 header.fields) ?_
      rw [fitted, narrow]
      exact level_fits 1 rows

theorem Headed.length_eq {headers : List Text} {rows records : List (List Text)}
    (headed : Headed headers rows records) : ∀ row ∈ rows, row.length = headers.length := by
  cases headed with
  | first _ _ level | second _ _ _ _ level => exact length_of_level level

def Complete (dates : Dates) (file : ContactFile) (row : List Text) : Mapping → Contact → Prop :=
  List.Forall₂ fun entry given => given.1 = entry.1 ∧ ∃ column cell,
    file.headers[column]? = some entry.2 ∧ entry.2 ∉ file.headers.take column ∧
      row[column]? = some cell ∧ (Attribute.kindOf entry.1).parse dates cell = .ok given.2

theorem column_of_mem {header : Text} (here : header ∈ file.headers) :
    ∃ column, file.column? header = some column ∧ column < file.headers.length ∧
      file.headers[column]? = some header ∧ header ∉ file.headers.take column := by
  obtain ⟨column, found⟩ : ∃ column, file.column? header = some column := by
    rw [← Option.isSome_iff_exists, column?, List.findIdx?_isSome, List.any_eq_true]
    exact ⟨header, here, by simp⟩
  obtain ⟨within, same, earlier⟩ := List.findIdx?_eq_some_iff_getElem.mp found
  rw [decide_eq_true_eq] at same
  refine ⟨column, found, within, by rw [List.getElem?_eq_getElem within, same], fun before => ?_⟩
  obtain ⟨index, bound, there⟩ := List.mem_take_iff_getElem.mp before
  exact earlier index (by omega) (by simpa using there)

/-- A row that is as wide as the header gives each mapped key its cell. -/
theorem complete_of_build {dates : Dates} {mapping : Mapping} {contact : Contact}
    (wide : row.length = file.headers.length) (mapped : ∀ entry ∈ mapping, entry.2 ∈ file.headers)
    (built : Contact.build dates file row mapping = .ok contact) :
    Complete dates file row mapping contact := by
  induction mapping generalizing contact with
  | nil =>
    cases built
    exact .nil
  | cons entry rest ih =>
    obtain ⟨key, header⟩ := entry
    obtain ⟨here, later⟩ := List.forall_mem_cons.mp mapped
    obtain ⟨column, found, within, same, first⟩ := column_of_mem here
    have cell := List.getElem?_eq_getElem (wide ▸ within : column < row.length)
    rw [Contact.build_cons, Contact.cell?, found, Option.bind_some, cell] at built
    cases parsed : (Attribute.kindOf key).parse dates row[column] with
    | error error => simp [parsed, bind, Except.bind] at built
    | ok value =>
      cases others : Contact.build dates file row rest with
      | error error => simp [parsed, others, bind, Except.bind] at built
      | ok others' =>
        simp only [parsed, others, bind, Except.bind, pure, Except.pure, Except.ok.injEq] at built
        subst built
        exact .cons ⟨rfl, column, _, same, first, cell, parsed⟩ (ih later others)

theorem separates_of_separated (separated : separator = .scalar ',' ∨ separator = .scalar '\t') :
    Table.Separates separator := by
  obtain rfl | rfl := separated <;> exact ⟨by decide, by decide⟩

/-- Every row of a file has the width of its header, and the rows are the records behind that which
are not blank and which the reader does not give up; of a text that spells records it gives one up
exactly if a field is too long, and of any other text it gives one up. What is built of a row by the
checked part of a mapping is complete. -/
theorem parse_rectangular (separated : separator = .scalar ',' ∨ separator = .scalar '\t')
    (parsed : parse name t separator previewSize = .ok file) :
    let text := t.dropWhile (· = Text.byteOrderMark)
    let read := Table.records separator .start 1 1 (Table.lines .feed text)
    let counted := ((read.filterMap id).map Table.Record.fields).filter (!Table.isBlank ·)
    (∀ row ∈ file.rows, row.length = file.headers.length) ∧
      Headed file.headers file.rows counted ∧
      (∀ document, Table.Spelled separator text document →
        (none ∉ read ↔ Table.Within document) ∧
          (none ∉ read → document.filter (!Table.isBlank ·) = counted)) ∧
      (none ∉ read → ∃ document, Table.Spelled separator text document) ∧
      ∀ mapping kept dropped, Mapping.validate file.headers mapping = .ok (kept, dropped) →
        ∀ dates, ∀ row ∈ file.rows, ∀ contact, Contact.build dates file row kept = .ok contact →
          Complete dates file row kept contact := by
  intro text read counted
  have proper := separates_of_separated separated
  have headed := headed_of_parse parsed
  rw [Table.countedFields_eq] at headed
  refine ⟨headed.length_eq, headed, fun document spelled => ?_, fun whole => ?_, ?_⟩
  · obtain ⟨within, found⟩ := Table.records_of_spelled proper spelled
    exact ⟨within, fun whole => (congrArg _ (found (within.mp whole))).symm⟩
  · obtain ⟨document, spelled, _⟩ := (Table.exists_spelled_iff proper).mpr whole
    exact ⟨document, spelled⟩
  · intro mapping kept dropped valid dates row here contact built
    obtain ⟨_, same⟩ := Mapping.validate_eq_ok_iff.mp valid
    obtain rfl : kept = (Mapping.restrict file.headers mapping).1 := congrArg Prod.fst same
    have fitting := (Mapping.restrict_fitting file.headers mapping).1
    exact complete_of_build (headed.length_eq row here)
      (fun entry mapped => (fitting.fits entry mapped).2.2) built

/-- A first record that is nothing but a mark in quotes is no header, but what comes behind it is as
narrow. -/
example : (parse "contacts.csv" "\"\uFEFF\"\nemail,name\na@x.io,Ann\n" (.scalar ',')
    defaultPreview).toOption.map (fun file => (file.headers, file.rows))
      = some ([Text.ofString "email"], [[Text.ofString "a@x.io"]]) := by
  decide +kernel

/-- Two columns of one name, a blank line, a record that is too short, and one that is too long, in
quotes and over two lines: each row is as wide as the header, and its contact has both keys. -/
theorem parse_rectangular_sample :
    let text : Text := "email,email,note\n\na@x.io\n\"b@x.io\",c@x.io,\"x\ny\",more\n"
    let rows : List (List Text) := [["a@x.io"], ["b@x.io", "c@x.io", "x\ny", "more"]]
    let row : List Text := ["b@x.io", "c@x.io", "x\ny"]
    let mapping : Mapping := [("first_name", "note"), (Attribute.emailKey, "email")]
    let kept : Mapping := [(Attribute.emailKey, "email"), ("first_name", "note")]
    let contact : Contact := [(Attribute.emailKey, .text "b@x.io"), ("first_name", .text "x\ny")]
    ∃ file, parse "contacts.csv" text (.scalar ',') defaultPreview = .ok file ∧
      Headed file.headers file.rows (file.headers :: rows) ∧ row ∈ file.rows ∧
      Mapping.validate file.headers mapping = .ok (kept, []) ∧
      Contact.build (Calendar.own 0) file row kept = .ok contact ∧
      Complete (Calendar.own 0) file row kept contact := by
  intro text rows row mapping kept contact
  let file : ContactFile := ⟨"contacts.csv", ["email", "email", "note"],
    [["a@x.io", "", ""], row], defaultPreview⟩
  have parsed : parse "contacts.csv" text (.scalar ',') defaultPreview = .ok file := rfl
  have valid : Mapping.validate file.headers mapping = .ok (kept, []) := by decide +kernel
  have built : Contact.build (Calendar.own 0) file row kept = .ok contact := rfl
  let headers : List Text := ["email", "email", "note"]
  have read : ((Table.records (.scalar ',') .start 1 1 (Table.lines .feed text)).filterMap id).map
      Table.Record.fields = headers :: [] :: rows := by decide +kernel
  obtain ⟨_, headed, _, _, complete⟩ := parse_rectangular (.inl rfl) parsed
  have unmarked : text.dropWhile (· = Text.byteOrderMark) = text := rfl
  rw [unmarked, read] at headed
  have here : row ∈ file.rows := by simp [file]
  exact ⟨file, parsed, headed, here, valid, built, complete mapping kept [] valid _ row here contact built⟩

private theorem parse_of_long {cell : Text} (bare : Table.Bare (.scalar ',') cell)
    (long : Table.fieldLimit < cell.length) :
    parse name ("email\n" ++ (cell ++ "\n")) (.scalar ',') previewSize
      = .ok ⟨name, [("email" : Text)], [], previewSize⟩ := by
  have clear : CodePoint.scalar '\n' ∉ cell := fun here => nomatch (bare.inside _ here).1
  have lines : Table.lines .feed ("email\n" ++ (cell ++ "\n")) = [("email\n" : Text), cell ++ "\n"] := by
    have first := @Table.lines_feed_cons ("email" : Text) (by decide) (cell ++ "\n")
    have second := Table.lines_feed_cons clear []
    exact first.trans (congrArg _ second)
  have header : Table.Machine.start.takeLine (.scalar ',') "email\n"
      = some ⟨.recordStart, [], 0, [("email" : Text)]⟩ := rfl
  have lost : Table.Machine.start.takeLine (.scalar ',') (cell ++ "\n") = none :=
    ((Table.givesUp_field (.inl rfl) (.bare bare) long).append _).takeLine
  have unmarked : (("email\n" ++ (cell ++ "\n") : Text).dropWhile (· = Text.byteOrderMark))
      = "email\n" ++ (cell ++ "\n") := rfl
  have records : Table.records (.scalar ',') .start 1 1 [("email\n" : Text), cell ++ "\n"]
      = [some ⟨1, [("email" : Text)]⟩, none] := by
    rw [Table.records, header]
    dsimp only
    rw [if_pos rfl, Table.records, lost]
    rfl
  rw [parse, ofText, recordsOf, unmarked, lines, records]
  rfl

private theorem spelled_of_bare {cell : Text} (bare : Table.Bare (.scalar ',') cell)
    (shown : cell ≠ []) :
    Table.Spelled (.scalar ',') ("email\n" ++ (cell ++ "\n")) [[("email" : Text)], [cell]] := by
  have header : Table.Bare (.scalar ',') ("email" : Text) := ⟨by decide, by decide⟩
  have last : Table.Spelled (.scalar ',') (cell ++ [.scalar '\n']) [[cell]] := by
    simpa [Table.carriages] using
      Table.Spelled.record 0 (.shown shown (.one (.bare bare))) .nothing
  exact .record 0 (.shown (by decide) (.one (.bare header))) last

/-- A cell that is too long takes its row with it, although it is neither blank nor badly quoted. -/
theorem parse_drops_long :
    let cell : Text := List.replicate (Table.fieldLimit + 1) (.scalar 'a')
    let text : Text := "email\n" ++ (cell ++ "\n")
    Table.Spelled (.scalar ',') text [["email"], [cell]] ∧ Table.isBlank [cell] = false ∧
      parse "contacts.csv" text (.scalar ',') defaultPreview
        = .ok ⟨"contacts.csv", [("email" : Text)], [], defaultPreview⟩ := by
  have bare : Table.Bare (.scalar ',') (List.replicate (Table.fieldLimit + 1) (.scalar 'a')) := by
    refine ⟨by simp [List.replicate_succ], fun c here => ?_⟩
    rw [List.eq_of_mem_replicate here]
    decide
  have letter : CodePoint.isBlank (.scalar 'a') = false := by decide
  exact ⟨spelled_of_bare bare (by simp), by simp [Table.isBlank, Text.isBlank, letter],
    parse_of_long bare (by simp)⟩

end ContactFile
end Intake
