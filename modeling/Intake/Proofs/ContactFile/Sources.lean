import Intake.Proofs.Encoding
import Intake.Proofs.Table.LineEnds
import Intake.Proofs.Table.Marked
import Intake.ContactFile.Loader

/-! A contact file from a text in memory and from a file with the same text. In memory only line feeds
end a line and no byte-order mark at the start counts; in a file every line end does, and one mark is
taken off the text, another one off its first field. -/
namespace Intake

theorem Text.cut?_append {separator : CodePoint} {before : Text} (whole : separator ∉ before)
    (after : Text) : cut? separator (before ++ separator :: after) = some (before, after) := by
  induction before with
  | nil => simp [cut?]
  | cons c before ih =>
    obtain ⟨other, rest⟩ := not_or.mp (List.mem_cons.not.mp whole)
    simp [cut?, Ne.symm other, ih rest]

theorem Path.suffix_of_name {path : Path} {stem : Text} {ending : Text} (shown : stem ≠ [])
    (ended : ending ≠ []) (whole : CodePoint.scalar '.' ∉ ending)
    (named : path.name = stem ++ .scalar '.' :: ending) :
    path.suffix = .scalar '.' :: ending := by
  have last : Text.cutLast? (.scalar '.') path.name = some (stem, ending) := by
    have cut := @Text.cut?_append (.scalar '.') ending.reverse (by simpa using whole) stem.reverse
    simp [Text.cutLast?, named, cut]
  obtain ⟨c, stem, rfl⟩ := List.exists_cons_of_ne_nil shown
  obtain ⟨d, ending, rfl⟩ := List.exists_cons_of_ne_nil ended
  rw [suffix, last]

def Path.schemes : List Text :=
  ["file", "ftp", "git", "git+ssh", "gopher", "hdl", "http", "https", "imap", "itms-services", "mms",
    "nfs", "nntp", "prospero", "rsync", "rtsp", "rtsps", "rtspu", "sftp", "shttp", "sip", "sips",
    "snews", "svn", "svn+ssh", "tel", "telnet", "wais", "ws", "wss"]

def Path.scheme? (path : Path) : Option Text :=
  let shown := (path.text.dropWhile (·.value ≤ 0x20)).filter fun c =>
    c.value ≠ 0x09 && c.value ≠ 0x0A && c.value ≠ 0x0D
  (Text.cut? (.scalar ':') shown).map fun parts => parts.1.lower

namespace ContactFile

/-- A path holds a file, and a reader of tables opens this one there: it takes the path neither for an
address nor for one below a home. -/
structure Finds (tree : FileTree) (path : Path) (bytes : Bytes) : Prop where
  stored : tree.read path = .ok bytes
  home : path.text.head? ≠ some (.scalar '~')
  address : ∀ scheme ∈ path.scheme?, scheme ∉ Path.schemes

variable {ends other : Table.LineEnds} {separator : CodePoint} {t u : Text}

private def unmarked (first? : Option (Option (List Text))) (counted : List (List Text)) :
    Except LoadError (List (List Text)) :=
  match first?, counted with
  | some (some first), (field :: fields) :: rest =>
    if Table.Record.counts ⟨0, first⟩ then
      match Table.unmark? field with
      | some field => .ok ((field :: fields) :: rest)
      | none => .error .unclosedMark
    else .ok counted
  | _, _ => .ok counted

private theorem countedRecords_fields (records : List (Option Table.Record)) :
    (countedRecords records).map (List.map Table.Record.fields)
      = unmarked (records.head?.map (Option.map Table.Record.fields))
          (Table.countedFields records) := by
  unfold countedRecords unmarked Table.countedFields
  cases records with
  | nil => rfl
  | cons first? rest =>
    generalize ((first? :: rest).filterMap id).filter Table.Record.counts = counted
    match first?, counted with
    | none, _ => rfl
    | some _, [] | some _, ⟨_, []⟩ :: _ => rfl
    | some first, ⟨line, field :: fields⟩ :: later =>
      have same : Table.Record.counts ⟨0, first.fields⟩ = first.counts := rfl
      simp only [List.head?_cons, Option.map_some, List.map_cons, same]
      split_ifs
      · cases Table.unmark? field <;> rfl
      · rfl

private theorem ofText_eq (name : Text) (previewSize : Int) :
    ofText ends separator name previewSize t
      = ((countedRecords (Table.records separator .start 1 1 (Table.lines ends t))).map
          (List.map Table.Record.fields)).bind fun counted =>
        let width := (counted.head?.map List.length).getD 0
        match counted.filter fun fields => Table.Record.counts ⟨0, fields⟩ with
        | [] => .error .empty
        | header :: rows => .ok ⟨name, fit width header, rows.map (fit width), previewSize⟩ := by
  unfold ofText recordsOf
  cases countedRecords (Table.records separator .start 1 1 (Table.lines ends t)) with
  | error error => rfl
  | ok found =>
    have width : ((found.map Table.Record.fields).head?.map List.length).getD 0
        = (found.head?.map (·.fields.length)).getD 0 := by
      cases found <;> rfl
    have left : (found.map Table.Record.fields).filter (fun fields => Table.Record.counts ⟨0, fields⟩)
        = (found.filter Table.Record.counts).map Table.Record.fields := by
      rw [List.filter_map]
      rfl
    simp only [bind, Except.bind, Except.map, pure, Except.pure, width, left]
    cases found.filter Table.Record.counts with
    | nil => rfl
    | cons header rows => simp

private theorem unmark_plain {field : Text} (plain : field.head? ≠ some Text.byteOrderMark) :
    Table.unmark? field = some field := by
  unfold Table.unmark?
  split
  · exact absurd rfl plain
  · exact absurd rfl plain
  · rfl

/-- A first record of two fields or more that no mark begins is the header. -/
theorem ofText_headed {field : Text} {header : List Text} {rows : List (List Text)} (name : Text)
    (previewSize : Int) (wide : header ≠ []) (plain : field.head? ≠ some Text.byteOrderMark)
    (head : (Table.records separator .start 1 1 (Table.lines ends t)).head?
      = some (some ⟨1, field :: header⟩))
    (counted : Table.countedFields (Table.records separator .start 1 1 (Table.lines ends t))
      = (field :: header) :: rows) :
    ofText ends separator name previewSize t
      = .ok ⟨name, field :: header, rows.map (fit (field :: header).length), previewSize⟩ := by
  obtain ⟨second, header, rfl⟩ := List.exists_cons_of_ne_nil wide
  have whole := unmark_plain plain
  have counts : Table.Record.counts ⟨0, field :: second :: header⟩ = true := rfl
  have all : ((field :: second :: header) :: rows).filter (fun fields => Table.Record.counts ⟨0, fields⟩)
      = (field :: second :: header) :: rows := by
    rw [← counted, Table.countedFields, List.filter_map, List.filter_filter]
    exact congrArg _ (List.filter_congr fun r _ => Bool.and_self _)
  rw [ofText_eq, countedRecords_fields, head, counted]
  simp only [Option.map_some, unmarked, counts, if_true, whole, Except.bind, all, List.head?_cons,
    Option.getD_some]
  simp [fit]

/-- Records that are alike make one contact file. -/
theorem ofText_alike (name : Text) (previewSize : Int)
    (alike : Table.Alike (Table.records separator .start 1 1 (Table.lines ends t))
      (Table.records separator .start 1 1 (Table.lines other u))) :
    ofText ends separator name previewSize t = ofText other separator name previewSize u := by
  rw [ofText_eq, ofText_eq, countedRecords_fields, countedRecords_fields, alike.head, alike.counted]

/-- A mark in front of a text is taken off its first field, or lost with its first record. -/
theorem ofText_marked (name : Text) (previewSize : Int) (proper : Table.Separates separator)
    (apart : separator ≠ Text.byteOrderMark) (takes : Table.TakesMark separator t)
    (counts : ∀ r, (Table.records separator .start 1 1 (Table.lines ends t)).head? = some (some r) →
      r.counts = true) :
    ofText ends separator name previewSize (Text.byteOrderMark :: t)
      = ofText ends separator name previewSize t := by
  obtain ⟨field, after, before, plain, marked⟩ :=
    Table.records_marked proper apart ends takes 1 1
  have first : field.head? ≠ some Text.byteOrderMark ∧ field.head? ≠ some (.scalar '"') := by
    obtain ⟨rest, rfl⟩ := before
    cases field with
    | nil => simp
    | cons c field =>
      obtain ⟨_, unquote, other⟩ := takes.begun c rfl
      exact ⟨by simpa using other, by simpa using unquote⟩
  have whole : Table.unmark? field = some field := unmark_plain first.1
  have off : Table.unmark? (Text.byteOrderMark :: field) = some field := by
    unfold Table.unmark?
    split
    · rename_i same
      cases same
      exact absurd rfl first.2
    · rename_i same
      cases same
      rfl
    · rename_i other
      exact absurd rfl (other field)
  rw [plain] at counts
  rw [ofText_eq, ofText_eq, countedRecords_fields, countedRecords_fields, plain, marked]
  congr 1
  match after with
  | [] | none :: _ => rfl
  | some r :: rest =>
    have counted : Table.Record.counts ⟨r.line, field :: r.fields⟩ = true := counts _ rfl
    have still : Table.Record.counts ⟨r.line, (Text.byteOrderMark :: field) :: r.fields⟩ = true := by
      cases fields : r.fields with
      | nil =>
        have shown : Text.isBlank (Text.byteOrderMark :: field) = false := by
          have mark : CodePoint.isBlank Text.byteOrderMark = false := by decide
          simp [Text.isBlank, mark]
        simp [Table.Record.counts, shown]
      | cons second fields => rfl
    have counted' : Table.Record.counts ⟨0, field :: r.fields⟩ = true := counted
    have still' : Table.Record.counts ⟨0, (Text.byteOrderMark :: field) :: r.fields⟩ = true := still
    simp [Table.led, unmarked, Table.countedFields, counted, still, counted', still', whole, off]

/-- Whether reading a text from a file takes off all its marks: there is one at most, or there are two
and the second one goes into the first field of a text whose first record counts without it. -/
inductive LosesMarks (t : Text) : Prop
  | single (once : ¬ [Text.byteOrderMark, Text.byteOrderMark] <+: t)
  | double {rest : Text} (twice : t = Text.byteOrderMark :: Text.byteOrderMark :: rest)
      (takes : Table.TakesMark (.scalar ',') rest)
      (counts : ∀ r, (Table.records (.scalar ',') .start 1 1 (Table.lines .any rest)).head?
        = some (some r) → r.counts = true)

def withoutMark (t : Text) : Text := if t.head? = some Text.byteOrderMark then t.tail else t

private theorem decode_encoded {bytes : Bytes} (encoded : Text.encodeUtf8 t = some bytes) :
    decode .utf8 bytes = .ok (withoutMark t) := by
  obtain ⟨bytes', encoded', decoded⟩ :=
    Text.decodeUtf8_encodeUtf8 (Text.isScalar_of_encodeUtf8 encoded)
  obtain rfl := Option.some.inj (encoded.symm.trans encoded')
  rw [decode, decoded]
  cases t <;> simp [withoutMark]

private theorem ofText_withoutMark (name : Text) (previewSize : Int) (marked : LosesMarks t) :
    ofText .any (.scalar ',') name previewSize (withoutMark t)
      = ofText .any (.scalar ',') name previewSize (t.dropWhile (· = Text.byteOrderMark)) := by
  cases marked with
  | single once =>
    congr 1
    cases t with
    | nil => rfl
    | cons c rest =>
      by_cases first : c = Text.byteOrderMark
      · subst first
        have second : rest.dropWhile (· = Text.byteOrderMark) = rest := by
          cases rest with
          | nil => rfl
          | cons d rest =>
            refine List.dropWhile_cons_of_neg fun same => once ?_
            simp [of_decide_eq_true same]
        rw [List.dropWhile_cons_of_pos (by simp), second]
        simp [withoutMark]
      · rw [List.dropWhile_cons_of_neg (by simpa using first)]
        simp [withoutMark, first]
  | @double rest twice takes counts =>
    subst twice
    have unmarked : rest.dropWhile (· = Text.byteOrderMark) = rest := by
      cases rest with
      | nil => rfl
      | cons c rest =>
        exact List.dropWhile_cons_of_neg (by simpa using (takes.begun c rfl).2.2)
    rw [List.dropWhile_cons_of_pos (by simp), List.dropWhile_cons_of_pos (by simp), unmarked]
    exact ofText_marked name previewSize ⟨by decide, by decide⟩ (by decide) takes counts

/-- Reading a file whose name ends in `.csv` comes to what its text comes to in memory, be it a
contact file or an error, if the reader takes off all marks of the text, and if line ends stand only
at the ends of the lines that it gives up. -/
theorem load_eq_parse {tree : FileTree} {path : Path} {stem : Text} {bytes : Bytes}
    (named : path.name = stem ++ ".csv") (shown : stem ≠ []) (found : Finds tree path bytes)
    (encoded : Text.encodeUtf8 t = some bytes) (marked : LosesMarks t)
    (firm : Table.isFirm (.scalar ',') .start
      (Table.lines .feed (t.dropWhile (· = Text.byteOrderMark))) = true) :
    load tree path {} = parse path.name t (.scalar ',') defaultPreview := by
  have suffix : path.suffix = Text.ofString ".csv" :=
    @Path.suffix_of_name path stem (Text.ofString "csv") shown (by decide) (by decide) named
  have separator : separatorOf? path.suffix = some (.scalar ',') := by
    rw [suffix]
    decide +kernel
  have records := @Table.records_lines (.scalar ',') (by decide) _ firm
  simp only [load, separator, found.stored, decode_encoded encoded, Option.getD_none]
  rw [ofText_withoutMark path.name defaultPreview marked]
  exact (ofText_alike path.name defaultPreview records).symm

def treeOf (name t : Text) : FileTree :=
  ⟨[([name], .file (.bytes ((Text.encodeUtf8 t).getD [])))]⟩

def noted : Text :=
  Text.byteOrderMark :: Text.ofString "email,note\r\nann@x.io,\"a\rb\"\r\n"

theorem load_eq_parse_sample :
    load (treeOf "people.csv" noted) (Path.ofText "people.csv") {}
        = parse "people.csv" noted (.scalar ',') defaultPreview ∧
      (parse "people.csv" noted (.scalar ',') defaultPreview).toOption.map (·.rows)
        = some [[Text.ofString "ann@x.io", Text.ofString "a\rb"]] := by
  obtain ⟨bytes, encoded, _⟩ :=
    Text.decodeUtf8_encodeUtf8 (show noted.isScalar = true by decide +kernel)
  have stored : (treeOf "people.csv" noted).read (Path.ofText "people.csv") = .ok bytes := by
    rw [treeOf, encoded]
    rfl
  refine ⟨?_, by decide +kernel⟩
  have found : Finds (treeOf "people.csv" noted) (Path.ofText "people.csv") bytes :=
    ⟨stored, by decide +kernel, by decide +kernel⟩
  exact load_eq_parse (show (Path.ofText "people.csv").name = Text.ofString "people" ++ ".csv" by
    decide +kernel) (by decide) found encoded (.single (by decide +kernel)) (by decide +kernel)

/-- Line ends that are carriage returns alone are none in memory: what is left of the text there is
nothing, and in the file a header and a row. A third mark at the start of a file is taken for part of
the header, and a name that is nothing but `.csv` for one without an ending. -/
theorem load_ne_parse :
    ((load (treeOf "a.csv" "email\ra@x.io\r") (Path.ofText "a.csv") {}).toOption.map (·.rows)
        = some [[Text.ofString "a@x.io"]] ∧
      (parse "a.csv" "email\ra@x.io\r" (.scalar ',') defaultPreview).toOption.isNone = true) ∧
    ((load (treeOf "a.csv" "\uFEFF\uFEFF\uFEFFemail\n") (Path.ofText "a.csv") {}).toOption.map
        (·.headers) = some [Text.ofString "\uFEFFemail"] ∧
      (parse "a.csv" "\uFEFF\uFEFF\uFEFFemail\n" (.scalar ',') defaultPreview).toOption.map
        (·.headers) = some [Text.ofString "email"]) ∧
    ((load (treeOf ".csv" "email\n") (Path.ofText ".csv") {}).toOption.isNone = true ∧
      (parse ".csv" "email\n" (.scalar ',') defaultPreview).toOption.isSome = true) := by
  decide +kernel

end ContactFile
end Intake
