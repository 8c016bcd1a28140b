import Intake.Proofs.Entries
import Intake.Proofs.Json.Numbers

/-! Written JSON is read back as the value that was written, if the value can be told from its written
form: with the keys of each object distinct and, where surrogates are escaped, with no text in which
two code points would make a surrogate pair. -/
namespace Intake

theorem CodePoint.value_ofNat? {n : Nat} {c : CodePoint} (found : ofNat? n = some c) :
    c.value = n := by
  unfold ofNat? at found
  by_cases valid : n.isValidChar
  · rw [dif_pos valid] at found
    cases found
    rfl
  · rw [dif_neg valid] at found
    by_cases surrogate : 0xD800 ≤ n ∧ n < 0xE000
    · rw [dif_pos surrogate] at found
      cases found
      simp only [value]
      omega
    · rw [dif_neg surrogate] at found
      cases found

def Text.isJoined : Text → Bool
  | c :: d :: rest => !(c.isHigh && d.isLow) && isJoined (d :: rest)
  | _ => true

theorem Text.hexDigit?_hexDigit : ∀ n < 16, (hexDigit n).hexDigit? = some n := by decide

namespace Json

theorem point_value (c : CodePoint) : point c.value = c := by
  simp [point, CodePoint.ofNat?_value]

theorem value_point {n : Nat} (small : n < 0x110000) : (point n).value = n := by
  cases found : CodePoint.ofNat? n with
  | some c => simp [point, found, CodePoint.value_ofNat? found]
  | none =>
    unfold CodePoint.ofNat? at found
    by_cases valid : n.isValidChar
    · rw [dif_pos valid] at found
      cases found
    · rw [dif_neg valid] at found
      by_cases surrogate : 0xD800 ≤ n ∧ n < 0xE000
      · rw [dif_pos surrogate] at found
        cases found
      · unfold Nat.isValidChar at valid
        omega

theorem unit?_hexDigit {n : Nat} (small : n < 0x10000) :
    unit? (Text.hexDigit (n / 4096)) (Text.hexDigit (n / 256 % 16)) (Text.hexDigit (n / 16 % 16))
      (Text.hexDigit (n % 16)) = some n := by
  have digit (m : Nat) := Text.hexDigit?_hexDigit (m % 16) (Nat.mod_lt _ (by decide))
  simp only [unit?, digit, Text.hexDigit?_hexDigit (n / 4096) (by omega), bind, Option.bind, pure]
  simp only [numberOfDigits, List.foldl_cons, List.foldl_nil, Option.some.injEq]
  omega

theorem unitEscape_eq {n : Nat} (small : n < 0x10000) :
    unitEscape n = [.scalar '\\', .scalar 'u', Text.hexDigit (n / 4096),
      Text.hexDigit (n / 256 % 16), Text.hexDigit (n / 16 % 16), Text.hexDigit (n % 16)] := by
  rw [unitEscape, Text.hex_four small]
  rfl

inductive Written (ascii : Bool) (c : CodePoint) : Text → Prop
  | unit (basic : c.value < 0x10000) (needed : ascii = true ∨ c.value < 0x20) :
      Written ascii c (unitEscape c.value)
  | pair (high low : Nat) (isHigh : 0xD800 ≤ high ∧ high < 0xDC00)
      (isLow : 0xDC00 ≤ low ∧ low < 0xE000)
      (whole : c.value = 0x10000 + (high - 0xD800) * 0x400 + (low - 0xDC00)) :
      Written ascii c (unitEscape high ++ unitEscape low)
  | letter (name char : Char) (plain : name ≠ 'u') (named : escaped? name = some char)
      (same : c = .scalar char) : Written ascii c [.scalar '\\', .scalar name]
  | itself (unquoted : c ≠ .scalar '"') (unescaped : c ≠ .scalar '\\') (shown : 0x20 ≤ c.value) :
      Written ascii c [c]

theorem written (ascii : Bool) (c : CodePoint) : Written ascii c (writePoint ascii c) := by
  have bound := c.value_lt
  unfold writePoint
  split
  · exact .letter '"' _ (by decide) rfl rfl
  · exact .letter '\\' _ (by decide) rfl rfl
  · exact .letter 'n' _ (by decide) rfl rfl
  · exact .letter 'r' _ (by decide) rfl rfl
  · exact .letter 't' _ (by decide) rfl rfl
  · exact .letter 'b' _ (by decide) rfl rfl
  · exact .letter 'f' _ (by decide) rfl rfl
  · rename_i unquoted unescaped _ _ _ _ _
    simp only
    split_ifs with control printable basic
    · exact .unit (by omega) (.inr control)
    · exact .itself unquoted unescaped (by omega)
    · exact .unit basic (.inl (by simpa using fun escaped => printable (.inr escaped)))
    · exact .pair _ _ (by omega) (by omega) (by omega)

def Apart (t : Text) : Prop :=
  ∀ a b c d rest, t = .scalar '\\' :: .scalar 'u' :: a :: b :: c :: d :: rest →
    ∃ low, unit? a b c d = some low ∧ (point low).isLow = false

theorem readString_unit {n : Nat} {next : CodePoint} {rest : Text} (small : n < 0x10000)
    (apart : (point n).isHigh = true → Apart (next :: rest)) :
    readString (unitEscape n ++ next :: rest)
      = (readString (next :: rest)).map fun r => (point n :: r.1, r.2) := by
  rw [unitEscape_eq small]
  simp only [List.cons_append, List.nil_append]
  rw [readString, unit?_hexDigit small]
  simp only
  split_ifs with high
  · split
    · rename_i e f g h after rest
      obtain ⟨low, spelled, single⟩ := apart high e f g h (after :: rest) rfl
      simp [spelled, single]
    · rfl
  · rfl

theorem readString_pair {c : CodePoint} {high low : Nat} {tail : Text}
    (isHigh : 0xD800 ≤ high ∧ high < 0xDC00) (isLow : 0xDC00 ≤ low ∧ low < 0xE000)
    (whole : c.value = 0x10000 + (high - 0xD800) * 0x400 + (low - 0xDC00)) (more : tail ≠ []) :
    readString (unitEscape high ++ unitEscape low ++ tail)
      = (readString tail).map fun r => (c :: r.1, r.2) := by
  have first : (point high).isHigh = true := by
    simp [CodePoint.isHigh, value_point (show high < 0x110000 by omega), isHigh]
  have second : (point low).isLow = true := by
    simp [CodePoint.isLow, value_point (show low < 0x110000 by omega), isLow]
  have joined : CodePoint.ofPair high low = c := by
    rw [CodePoint.ofPair, ← whole, CodePoint.ofNat?_value]
    rfl
  obtain ⟨after, rest, rfl⟩ := List.exists_cons_of_ne_nil more
  rw [unitEscape_eq (show high < 0x10000 by omega), unitEscape_eq (show low < 0x10000 by omega)]
  simp only [List.cons_append, List.nil_append]
  rw [readString, unit?_hexDigit (by omega)]
  simp only [first, if_true, unit?_hexDigit (show low < 0x10000 by omega), second, joined]

theorem readString_writePoint {ascii : Bool} {c : CodePoint} {tail : Text} (more : tail ≠ [])
    (apart : ascii = true → c.isHigh = true → Apart tail) :
    readString (writePoint ascii c ++ tail)
      = (readString tail).map fun r => (c :: r.1, r.2) := by
  obtain ⟨next, rest, rfl⟩ := List.exists_cons_of_ne_nil more
  have form := written ascii c
  generalize writePoint ascii c = text at form
  cases form with
  | unit basic needed =>
    have behind : (point c.value).isHigh = true → Apart (next :: rest) := by
      rw [point_value]
      intro high
      rcases needed with escaped | control
      · exact apart escaped high
      · simp only [CodePoint.isHigh, Bool.and_eq_true, decide_eq_true_eq] at high
        omega
    have read := readString_unit basic behind
    rwa [point_value] at read
  | pair high low isHigh isLow whole => exact readString_pair isHigh isLow whole more
  | letter name char plain named same =>
    simp only [List.cons_append, List.nil_append]
    rw [readString]
    · simp [named, same]
    · exact fun _ _ _ _ _ _ _ => plain
    · exact plain
  | itself unquoted unescaped shown =>
    simp only [List.cons_append, List.nil_append]
    rw [readString]
    · rw [if_neg (by omega)]
    · exact unquoted
    · exact fun _ _ _ _ _ _ same => absurd same unescaped
    · exact fun _ same => absurd same unescaped
    · exact fun _ _ same => absurd same unescaped
    · exact fun same => absurd same unescaped
    · exact unescaped

/-- A high surrogate is not joined with what is written for any code point but a low surrogate. -/
theorem apart_writePoint {ascii : Bool} {c : CodePoint} (single : c.isLow = false) (tail : Text) :
    Apart (writePoint ascii c ++ tail) := by
  intro a b d e rest same
  have form := written ascii c
  generalize writePoint ascii c = text at form same
  cases form with
  | unit basic needed =>
    rw [unitEscape_eq basic] at same
    simp only [List.cons_append, List.cons.injEq] at same
    obtain ⟨_, _, rfl, rfl, rfl, rfl, _⟩ := same
    exact ⟨_, unit?_hexDigit basic, by rwa [point_value]⟩
  | pair high low isHigh isLow whole =>
    have basic : high < 0x10000 := by omega
    rw [unitEscape_eq basic] at same
    simp only [List.cons_append, List.cons.injEq] at same
    obtain ⟨_, _, rfl, rfl, rfl, rfl, _⟩ := same
    refine ⟨_, unit?_hexDigit basic, ?_⟩
    simp [CodePoint.isLow, value_point (show high < 0x110000 by omega)]
    omega
  | letter name char plain named same' =>
    simp only [List.cons_append, List.cons.injEq, CodePoint.scalar.injEq] at same
    exact absurd same.2.1 plain
  | itself unquoted unescaped shown =>
    simp only [List.cons_append, List.cons.injEq] at same
    exact absurd same.1 unescaped

/-- A text is read from its written form up to the closing quote. -/
theorem readString_written {ascii : Bool} {t : Text} (joined : ascii = true → t.isJoined = true)
    (rest : Text) :
    readString (t.flatMap (writePoint ascii) ++ .scalar '"' :: rest) = .ok (t, rest) := by
  induction t with
  | nil => rw [List.flatMap_nil, List.nil_append, readString]
  | cons c t ih =>
    have later (escaped : ascii = true) : Text.isJoined t = true := by
      have whole := joined escaped
      cases t with
      | nil => rfl
      | cons d t => simp_all [Text.isJoined]
    rw [List.flatMap_cons, List.append_assoc, readString_writePoint (by simp), ih later]
    · rfl
    · intro escaped high
      have whole := joined escaped
      cases t with
      | nil =>
        intro a b d e rest same
        simp at same
      | cons d t =>
        rw [List.flatMap_cons, List.append_assoc]
        exact apart_writePoint (by simp_all [Text.isJoined]) _

/-! Values. -/

structure Layout.Regular (layout : Layout) : Prop where
  comma : ∃ blanks, layout.comma = .scalar ',' :: List.replicate blanks (.scalar ' ')
  colon : ∃ blanks, layout.colon = .scalar ':' :: List.replicate blanks (.scalar ' ')

theorem stored_regular : stored.Regular := ⟨⟨1, rfl⟩, ⟨1, rfl⟩⟩

theorem compact_regular : compact.Regular := ⟨⟨0, rfl⟩, ⟨0, rfl⟩⟩

inductive Faithful (layout : Layout) : Nat → Json → Prop
  | null {depth : Nat} : Faithful layout depth null
  | boolean {depth : Nat} (value : Bool) : Faithful layout depth (boolean value)
  | integer {depth : Nat} (value : Int) : Faithful layout depth (integer value)
  | real {depth : Nat} (value : Binary64) : Faithful layout depth (real value)
  | text {depth : Nat} {value : Text} (joined : layout.ascii = true → value.isJoined = true) :
      Faithful layout depth (text value)
  | list {depth : Nat} {items : List Json} (each : ∀ item ∈ items, Faithful layout depth item) :
      Faithful layout (depth + 1) (list items)
  | object {depth : Nat} {entries : List (Text × Json)} (distinct : (Entries.keys entries).Nodup)
      (joined : ∀ entry ∈ entries, layout.ascii = true → entry.1.isJoined = true)
      (each : ∀ entry ∈ entries, Faithful layout depth entry.2) :
      Faithful layout (depth + 1) (object entries)

def Reads (layout : Layout) (depth : Nat) (j : Json) : Prop :=
  ∀ t, write layout j = .ok t → ∀ fuel tail, 2 * t.length ≤ fuel → Closed tail →
    readValue fuel depth (t ++ tail) = .ok (j, tail)

def Solid (t : Text) : Prop :=
  ∃ c rest, t = .scalar c :: rest ∧ isSpace (.scalar c) = false ∧ c ≠ ']' ∧ c ≠ '\x7d' ∧
    c ≠ '\uFEFF'

theorem Solid.skipSpace {t : Text} (solid : Solid t) (more : Text) :
    Json.skipSpace (t ++ more) = t ++ more := by
  obtain ⟨c, rest, rfl, shown, _⟩ := solid
  simp [Json.skipSpace, shown]

theorem Solid.join {t : Text} (solid : Solid t) (separator : Text) (rest : List Text) :
    Solid (Text.join separator (t :: rest)) := by
  obtain ⟨c, more, rfl, shown, other⟩ := solid
  cases rest with
  | nil => exact ⟨c, more, rfl, shown, other⟩
  | cons next rest => exact ⟨c, _, rfl, shown, other⟩

theorem skipSpace_blanks {t : Text} (solid : Solid t) (blanks : Nat) (more : Text) :
    skipSpace (List.replicate blanks (.scalar ' ') ++ (t ++ more)) = t ++ more := by
  induction blanks with
  | zero => exact solid.skipSpace more
  | succ blanks ih => exact ih

variable {layout : Layout}

private theorem solid_head {c : Char} {rest : Text}
    (head : c = '-' ∨ c = 'N' ∨ c = 'I' ∨ c.isDigit = true) : Solid (.scalar c :: rest) := by
  have other {d : Char} (letter : d ≠ '-' ∧ d ≠ 'N' ∧ d ≠ 'I' ∧ d.isDigit = false) : c ≠ d := by
    rintro rfl
    simp [letter] at head
  refine ⟨c, rest, rfl, ?_, other (by decide), other (by decide), other (by decide)⟩
  simp [isSpace, other]

private theorem head_writeInteger {i : Int} {t : Text} (written : writeInteger i = .ok t) :
    ∃ c rest, t = .scalar c :: rest ∧ (c = '-' ∨ c = 'N' ∨ c = 'I' ∨ c.isDigit = true) := by
  obtain ⟨_, rfl⟩ := ofInt_of_written written
  obtain ⟨c, rest, same, sign | digit⟩ := ofInt_head i
  · exact ⟨c, rest, same, .inl sign⟩
  · exact ⟨c, rest, same, .inr (.inr (.inr digit))⟩

theorem solid_write {j : Json} {t : Text} (written : write layout j = .ok t) : Solid t := by
  cases j with
  | null =>
    cases written
    exact ⟨'n', _, rfl, rfl, by decide, by decide, by decide⟩
  | boolean value =>
    cases written
    cases value
    · exact ⟨'f', _, rfl, rfl, by decide, by decide, by decide⟩
    · exact ⟨'t', _, rfl, rfl, by decide, by decide, by decide⟩
  | integer value =>
    rw [write] at written
    obtain ⟨c, rest, rfl, head⟩ := head_writeInteger written
    exact solid_head head
  | real value =>
    rw [write] at written
    obtain ⟨c, rest, rfl, head⟩ := head_writeReal written
    exact solid_head head
  | text value =>
    cases written
    exact ⟨'"', _, rfl, rfl, by decide, by decide, by decide⟩
  | list items =>
    obtain ⟨texts, _, rfl⟩ := write_list written
    exact ⟨'[', _, rfl, rfl, by decide, by decide, by decide⟩
  | object entries =>
    obtain ⟨texts, _, rfl⟩ := write_object written
    exact ⟨'\x7b', _, rfl, rfl, by decide, by decide, by decide⟩

theorem readQuoted_writeString {ascii : Bool} {t : Text} (joined : ascii = true → t.isJoined = true)
    (tail : Text) : ∃ rest, writeString ascii t ++ tail = .scalar '"' :: rest ∧
      readQuoted rest = .ok (t, tail) := by
  refine ⟨t.flatMap (writePoint ascii) ++ .scalar '"' :: tail, ?_, ?_⟩
  · simp [writeString]
  · rw [readQuoted, readString_written joined]

theorem readItems_join (regular : layout.Regular) {depth : Nat} {items : List Json}
    {texts : List Text} (some : items ≠ []) (reads : ∀ item ∈ items, Reads layout depth item)
    (written : writeItems layout items = .ok texts) {fuel : Nat} {tail : Text}
    (enough : 2 * (Text.join layout.comma texts).length + 1 ≤ fuel) :
    readItems fuel depth (Text.join layout.comma texts ++ .scalar ']' :: tail)
      = .ok (items, tail) := by
  obtain ⟨blanks, comma⟩ := regular.comma
  induction items generalizing texts fuel with
  | nil => exact absurd rfl some
  | cons item items ih =>
    obtain ⟨t, rest, first, others, rfl⟩ := writeItems_cons written
    obtain ⟨fuel, rfl⟩ : ∃ less, fuel = less + 1 := ⟨fuel - 1, by omega⟩
    have readFirst := reads item List.mem_cons_self t first fuel
    cases items with
    | nil =>
      cases others
      have read := readFirst (.scalar ']' :: tail) (by simp only [Text.join] at enough; omega)
        (.inr ⟨_, _, rfl, by simp⟩)
      simp [readItems, Text.join, read, bind, Except.bind, skipSpace, isSpace, pure, Except.pure]
    | cons next items =>
      obtain ⟨u, rest, second, more, rfl⟩ := writeItems_cons others
      have solid := (solid_write second).join layout.comma rest
      have apart : Text.join layout.comma (t :: u :: rest) = t ++ .scalar ',' ::
          (List.replicate blanks (.scalar ' ') ++ Text.join layout.comma (u :: rest)) := by
        simp [Text.join, comma]
      rw [apart] at enough ⊢
      simp only [List.length_append, List.length_cons] at enough
      have readRest : readItems fuel depth (Text.join layout.comma (u :: rest) ++ .scalar ']' :: tail)
          = .ok (next :: items, tail) :=
        ih (by simp) (fun other here => reads other (List.mem_cons_of_mem _ here)) others (by omega)
      generalize Text.join layout.comma (u :: rest) = inner at solid enough readRest
      have read := readFirst (.scalar ',' ::
        (List.replicate blanks (.scalar ' ') ++ (inner ++ .scalar ']' :: tail)))
        (by omega) (.inr ⟨_, _, rfl, by simp⟩)
      have blank := skipSpace_blanks solid blanks (.scalar ']' :: tail)
      have mark (rest : Text) : skipSpace (.scalar ',' :: rest) = .scalar ',' :: rest := rfl
      simp only [List.append_assoc, List.cons_append, readItems, read, bind, Except.bind, mark, blank,
        readRest, pure, Except.pure]

theorem readMember {blanks : Nat}
    (colon : layout.colon = .scalar ':' :: List.replicate blanks (.scalar ' ')) {depth fuel : Nat}
    {key t more : Text} {value : Json} (joined : layout.ascii = true → key.isJoined = true)
    (reads : Reads layout depth value) (written : write layout value = .ok t)
    (enough : 2 * t.length ≤ fuel) (closed : Closed more) :
    ∃ rest, writeString layout.ascii key ++ layout.colon ++ t ++ more = .scalar '"' :: rest ∧
      readQuoted rest
        = .ok (key, .scalar ':' :: (List.replicate blanks (.scalar ' ') ++ (t ++ more))) ∧
      readValue fuel depth (t ++ more) = .ok (value, more) := by
  obtain ⟨rest, quoted, named⟩ := readQuoted_writeString joined
    (.scalar ':' :: (List.replicate blanks (.scalar ' ') ++ (t ++ more)))
  refine ⟨rest, ?_, named, reads t written fuel more enough closed⟩
  rw [← quoted, colon]
  simp

theorem readMembers_join (regular : layout.Regular) {depth : Nat} {entries : List (Text × Json)}
    {texts : List Text} (some : entries ≠ [])
    (reads : ∀ entry ∈ entries, Reads layout depth entry.2)
    (joined : ∀ entry ∈ entries, layout.ascii = true → entry.1.isJoined = true)
    (written : writeEntries layout entries = .ok texts)
    {fuel : Nat} {tail : Text} (enough : 2 * (Text.join layout.comma texts).length + 1 ≤ fuel) :
    readMembers fuel depth (Text.join layout.comma texts ++ .scalar '\x7d' :: tail)
      = .ok (entries, tail) := by
  obtain ⟨⟨blanks, comma⟩, colonBlanks, colon⟩ := regular
  induction entries generalizing texts fuel with
  | nil => exact absurd rfl some
  | cons entry entries ih =>
    obtain ⟨key, value⟩ := entry
    obtain ⟨t, rest, first, others, rfl⟩ := writeEntries_cons written
    obtain ⟨fuel, rfl⟩ : ∃ less, fuel = less + 1 := ⟨fuel - 1, by omega⟩
    have solid := solid_write first
    have colonMark (rest : Text) : skipSpace (.scalar ':' :: rest) = .scalar ':' :: rest := rfl
    have member {more : Text} (enough : 2 * t.length ≤ fuel) (closed : Closed more) :=
      readMember colon (joined (key, value) List.mem_cons_self)
        (reads (key, value) List.mem_cons_self) first enough closed
    cases entries with
    | nil =>
      cases others
      simp only [Text.join, List.length_append] at enough ⊢
      obtain ⟨rest, quoted, named, read⟩ := member (by omega)
        (.inr ⟨_, _, rfl, by simp⟩ : Closed (.scalar '\x7d' :: tail))
      have brace : skipSpace (.scalar '\x7d' :: tail) = .scalar '\x7d' :: tail := rfl
      simp only [quoted, readMembers, named, bind, Except.bind, colonMark, skipSpace_blanks solid,
        read, brace, pure, Except.pure]
    | cons next entries =>
      obtain ⟨nextKey, nextValue⟩ := next
      obtain ⟨u, rest, second, more, rfl⟩ := writeEntries_cons others
      generalize same : writeString layout.ascii nextKey ++ layout.colon ++ u = v at others enough ⊢
      have solidNext : Solid v :=
        ⟨'"', _, by rw [← same]; rfl, rfl, by decide, by decide, by decide⟩
      have solidRest := solidNext.join layout.comma rest
      have apart (m : Text) : Text.join layout.comma (m :: v :: rest) = m ++ .scalar ',' ::
          (List.replicate blanks (.scalar ' ') ++ Text.join layout.comma (v :: rest)) := by
        simp [Text.join, comma]
      rw [apart] at enough ⊢
      simp only [List.length_append, List.length_cons] at enough
      have readRest : readMembers fuel depth
            (Text.join layout.comma (v :: rest) ++ .scalar '\x7d' :: tail)
          = .ok ((nextKey, nextValue) :: entries, tail) :=
        ih (by simp) (fun other here => reads other (List.mem_cons_of_mem _ here))
          (fun other here => joined other (List.mem_cons_of_mem _ here)) others (by omega)
      generalize Text.join layout.comma (v :: rest) = inner at solidRest enough readRest
      obtain ⟨body, quoted, named, read⟩ := member (by omega) (.inr ⟨_, _, rfl, by simp⟩ :
        Closed (.scalar ',' ::
          (List.replicate blanks (.scalar ' ') ++ (inner ++ .scalar '\x7d' :: tail))))
      have blank := skipSpace_blanks solidRest blanks (.scalar '\x7d' :: tail)
      have mark (rest : Text) : skipSpace (.scalar ',' :: rest) = .scalar ',' :: rest := rfl
      have whole : writeString layout.ascii key ++ layout.colon ++ t ++ .scalar ',' ::
          (List.replicate blanks (.scalar ' ') ++ inner) ++ .scalar '\x7d' :: tail
            = .scalar '"' :: body := by
        rw [← quoted]
        simp
      rw [whole]
      simp only [readMembers, named, bind, Except.bind, colonMark, skipSpace_blanks solid, read,
        mark, blank, readRest, pure, Except.pure]

/-- What begins like no string, list or object is a word or a number. -/
theorem readValue_plain {c : Char} (other : c ≠ '"' ∧ c ≠ '[' ∧ c ≠ '\x7b') (fuel depth : Nat)
    (rest : Text) : readValue (fuel + 1) depth (.scalar c :: rest) = readPlain (.scalar c :: rest) := by
  rw [readValue]
  · simp [other]
  · simp [other]
  · simp [other]

private theorem readValue_head {c : Char}
    (head : c = '-' ∨ c = 'N' ∨ c = 'I' ∨ c.isDigit = true) (fuel depth : Nat) (rest : Text) :
    readValue (fuel + 1) depth (.scalar c :: rest) = readPlain (.scalar c :: rest) := by
  have other {d : Char} (letter : d ≠ '-' ∧ d ≠ 'N' ∧ d ≠ 'I' ∧ d.isDigit = false) : c ≠ d := by
    rintro rfl
    simp [letter] at head
  exact readValue_plain ⟨other (by decide), other (by decide), other (by decide)⟩ fuel depth rest

private theorem reads_succ {depth : Nat} {j : Json}
    (read : ∀ t, write layout j = .ok t → ∀ fuel tail, 2 * t.length ≤ fuel + 1 → Closed tail →
      readValue (fuel + 1) depth (t ++ tail) = .ok (j, tail)) : Reads layout depth j := by
  intro t written fuel tail enough closed
  obtain ⟨less, rfl⟩ : ∃ less, fuel = less + 1 := by
    obtain ⟨c, rest, rfl, _⟩ := solid_write written
    simp only [List.length_cons] at enough
    exact ⟨fuel - 1, by omega⟩
  exact read t written less tail enough closed

/-! One lemma for each kind of value. -/

private theorem reads_null {depth : Nat} : Reads layout depth null := by
  apply reads_succ
  intro t written fuel tail enough closed
  cases written
  exact readValue_plain (by decide) _ _ _

private theorem reads_boolean {depth : Nat} (value : Bool) : Reads layout depth (boolean value) := by
  apply reads_succ
  intro t written fuel tail enough closed
  cases written
  cases value
  · exact readValue_plain (by decide) _ _ _
  · exact readValue_plain (by decide) _ _ _

private theorem reads_integer {depth : Nat} (value : Int) : Reads layout depth (integer value) := by
  apply reads_succ
  intro t written fuel tail enough closed
  rw [write] at written
  have read := readPlain_ofInt written closed
  obtain ⟨c, rest, rfl, head⟩ := head_writeInteger written
  rw [List.cons_append] at read ⊢
  rw [readValue_head head, read]

private theorem reads_real {depth : Nat} (value : Binary64) : Reads layout depth (real value) := by
  apply reads_succ
  intro t written fuel tail enough closed
  rw [write] at written
  have read := readPlain_writeReal written closed
  obtain ⟨c, rest, rfl, head⟩ := head_writeReal written
  rw [List.cons_append] at read ⊢
  rw [readValue_head head, read]

private theorem reads_text {depth : Nat} {value : Text}
    (joined : layout.ascii = true → value.isJoined = true) : Reads layout depth (text value) := by
  apply reads_succ
  intro t written fuel tail enough closed
  cases written
  obtain ⟨rest, quoted, named⟩ := readQuoted_writeString joined tail
  rw [quoted, readValue, named]
  rfl

private theorem reads_list (regular : layout.Regular) {depth : Nat} {items : List Json}
    (each : ∀ item ∈ items, Reads layout depth item) : Reads layout (depth + 1) (list items) := by
  apply reads_succ
  intro t written fuel tail enough closed
  obtain ⟨texts, parts, rfl⟩ := write_list written
  simp only [List.length_append, List.length_cons, List.length_nil] at enough
  cases items with
  | nil =>
    cases parts
    rfl
  | cons item items =>
    obtain ⟨u, rest, first, _, rfl⟩ := writeItems_cons parts
    have solid := (solid_write first).join layout.comma rest
    have read : readItems fuel depth
          (Text.join layout.comma (u :: rest) ++ .scalar ']' :: tail)
        = .ok (item :: items, tail) :=
      readItems_join regular (by simp) each parts (by omega)
    have skipped := solid.skipSpace (.scalar ']' :: tail)
    obtain ⟨c, more, same, _, bracket, _⟩ := solid
    rw [same] at read skipped ⊢
    simp only [List.cons_append, List.nil_append, List.append_assoc] at read skipped ⊢
    rw [readValue]
    simp only [skipped]
    split
    · rename_i clash
      simp only [List.cons.injEq, CodePoint.scalar.injEq] at clash
      exact absurd clash.1 bracket
    · rw [read]
      rfl

private theorem reads_object (regular : layout.Regular) {depth : Nat}
    {entries : List (Text × Json)} (distinct : (Entries.keys entries).Nodup)
    (joined : ∀ entry ∈ entries, layout.ascii = true → entry.1.isJoined = true)
    (each : ∀ entry ∈ entries, Reads layout depth entry.2) :
    Reads layout (depth + 1) (object entries) := by
  apply reads_succ
  intro t written fuel tail enough closed
  obtain ⟨texts, parts, rfl⟩ := write_object written
  simp only [List.length_append, List.length_cons, List.length_nil] at enough
  cases entries with
  | nil =>
    cases parts
    rfl
  | cons entry entries =>
    obtain ⟨key, value⟩ := entry
    obtain ⟨u, rest, first, _, rfl⟩ := writeEntries_cons parts
    have read : readMembers fuel depth (Text.join layout.comma
          ((writeString layout.ascii key ++ layout.colon ++ u) :: rest) ++ .scalar '\x7d' :: tail)
        = .ok ((key, value) :: entries, tail) :=
      readMembers_join regular (by simp) each joined parts (by omega)
    have quote : Solid (writeString layout.ascii key ++ layout.colon ++ u) :=
      ⟨'"', _, rfl, rfl, by decide, by decide, by decide⟩
    have solid := quote.join layout.comma rest
    have skipped := solid.skipSpace (.scalar '\x7d' :: tail)
    obtain ⟨c, more, same, _, _, brace, _⟩ := solid
    rw [same] at read skipped ⊢
    simp only [List.cons_append, List.nil_append, List.append_assoc] at read skipped ⊢
    rw [readValue]
    simp only [skipped]
    split
    · rename_i clash
      simp only [List.cons.injEq, CodePoint.scalar.injEq] at clash
      exact absurd clash.1 brace
    · rw [read]
      simp only [Except.map, Entries.ofPairs_of_nodup distinct]

theorem reads_of_faithful (regular : layout.Regular) {depth : Nat} {j : Json}
    (faithful : Faithful layout depth j) : Reads layout depth j := by
  induction faithful with
  | null => exact reads_null
  | boolean value => exact reads_boolean value
  | integer value => exact reads_integer value
  | real value => exact reads_real value
  | text joined => exact reads_text joined
  | list each ih => exact reads_list regular ih
  | object distinct joined each ih => exact reads_object regular distinct joined ih

/-- Written JSON is read back as the value that was written. -/
theorem read_write (regular : layout.Regular) {j : Json} {t : Text}
    (faithful : Faithful layout depthLimit j) (written : write layout j = .ok t) :
    read t = .ok j := by
  have solid := solid_write written
  have value := reads_of_faithful regular faithful t written (2 * t.length + 2) [] (by omega)
    (.inl rfl)
  have skipped := solid.skipSpace []
  rw [List.append_nil] at value skipped
  obtain ⟨c, rest, same, _, _, _, unmarked⟩ := solid
  have unmarked : t.head? ≠ some Text.byteOrderMark := by
    rw [same]
    intro marked
    cases Option.some.inj marked
    exact unmarked rfl
  simp only [read, if_neg unmarked, skipped, value, bind, Except.bind, pure, Except.pure]
  rfl

end Json
end Intake
