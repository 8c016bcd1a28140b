import Intake.Proofs.Entries
import Intake.Proofs.Json.Strings
import Intake.Text.Blank
import Mathlib.Data.List.Infix
import Mathlib.Tactic.SplitIfs

/-! What reading JSON may answer. Each reader leaves a suffix of what it was given, so that what it
complains of is there in the whole text: as many digits in a row, or as many lists and objects that
open. And a value that it reads is nested no deeper than is followed, each integer of it is within the
limit of digits, and each object of it has each of its keys once, however often the text writes them.
If the text is one of characters, the strings of the value are joined. -/
namespace Intake

namespace Text

def HasRun (t : Text) (count : Nat) : Prop :=
  ∃ run, run <:+: t ∧ run.length = count ∧ ∀ c ∈ run, c.asciiDigit?.isSome

theorem HasRun.length_le {t : Text} {count : Nat} (has : t.HasRun count) : count ≤ t.length := by
  obtain ⟨run, inside, rfl, _⟩ := has
  exact inside.length_le

theorem HasRun.mono {s t : Text} {count : Nat} (has : s.HasRun count) (part : s <:+: t) :
    t.HasRun count := by
  obtain ⟨run, inside, size, digits⟩ := has
  exact ⟨run, inside.trans part, size, digits⟩

def openings (t : Text) : Nat := t.countP fun c => c = .scalar '[' ∨ c = .scalar '\x7b'

theorem openings_cons {c : CodePoint} (opens : c = .scalar '[' ∨ c = .scalar '\x7b') (t : Text) :
    openings (c :: t) = openings t + 1 :=
  List.countP_cons_of_pos (by simpa using opens)

theorem openings_le {s t : Text} (part : s <:+ t) : s.openings ≤ t.openings :=
  part.sublist.countP_le

/-- The digits at the start of a text are a run, and the text after it is left. -/
theorem takeDigits_run (t : Text) :
    ∃ run, t = run ++ (takeDigits t).2 ∧ run.length = (takeDigits t).1.length ∧
      ∀ c ∈ run, c.asciiDigit?.isSome := by
  induction t with
  | nil => exact ⟨[], rfl, rfl, by simp⟩
  | cons c rest ih =>
    obtain ⟨run, split, size, digits⟩ := ih
    cases digit : c.asciiDigit? with
    | none => exact ⟨[], by simp [takeDigits, digit], by simp [takeDigits, digit], by simp⟩
    | some value =>
      refine ⟨c :: run, ?_, by simp [takeDigits, digit, size], by simpa [digit] using digits⟩
      simpa [takeDigits, digit] using split

theorem takeDigits_suffix (t : Text) : (takeDigits t).2 <:+ t := by
  obtain ⟨run, split, _⟩ := takeDigits_run t
  exact ⟨run, split.symm⟩

theorem takeDigits_lt (t : Text) : ∀ digit ∈ (takeDigits t).1, digit < 10 := by
  induction t with
  | nil => simp [takeDigits]
  | cons c rest ih =>
    cases shown : c.asciiDigit? with
    | none => simp [takeDigits, shown]
    | some value =>
      have below : value < 10 := by
        unfold CodePoint.asciiDigit? at shown
        split at shown
        · cases shown
          omega
        · cases shown
      simpa [takeDigits, shown, below] using ih

theorem dropStart?_suffix {start t rest : Text} (dropped : dropStart? start t = some rest) :
    rest <:+ t := by
  fun_induction dropStart? start t with
  | case1 t =>
    cases dropped
    exact List.suffix_refl _
  | case2 => cases dropped
  | case3 start c t ih => exact (ih dropped).trans (List.suffix_cons c t)
  | case4 => cases dropped

theorem strip_infix (t : Text) : strip t <:+: t := by
  have ending (s : Text) : stripEnd s <+: s := by
    rw [stripEnd, ← List.reverse_suffix, List.reverse_reverse]
    exact List.dropWhile_suffix _
  exact (ending _).isInfix.trans (List.dropWhile_suffix _).isInfix

end Text

namespace Json

inductive Distinct : Json → Prop
  | null : Distinct .null
  | boolean (value : Bool) : Distinct (.boolean value)
  | integer (value : Int) : Distinct (.integer value)
  | real (value : Binary64) : Distinct (.real value)
  | text (value : Text) : Distinct (.text value)
  | list {items : List Json} (all : ∀ item ∈ items, Distinct item) : Distinct (.list items)
  | object {entries : List (Text × Json)} (once : (Entries.keys entries).Nodup)
      (all : ∀ entry ∈ entries, Distinct entry.2) : Distinct (.object entries)

theorem Distinct.get? {data value : Json} {key : Text} (distinct : data.Distinct)
    (found : data.get? key = some value) : value.Distinct := by
  cases distinct with
  | object _ all => exact all (key, value) (Entries.mem_of_get? found)
  | _ => cases found

inductive Joined : Json → Prop
  | null : Joined .null
  | boolean (value : Bool) : Joined (.boolean value)
  | integer (value : Int) : Joined (.integer value)
  | real (value : Binary64) : Joined (.real value)
  | text {value : Text} (joined : value.isJoined = true) : Joined (.text value)
  | list {items : List Json} (all : ∀ item ∈ items, Joined item) : Joined (.list items)
  | object {entries : List (Text × Json)} (named : ∀ entry ∈ entries, entry.1.isJoined = true)
      (all : ∀ entry ∈ entries, Joined entry.2) : Joined (.object entries)

theorem Joined.get? {data value : Json} {key : Text} (joined : data.Joined)
    (found : data.get? key = some value) : value.Joined := by
  cases joined with
  | object _ all => exact all (key, value) (Entries.mem_of_get? found)
  | _ => cases found

inductive Readable (characters : Prop) : Nat → Json → Prop
  | null {depth : Nat} : Readable characters depth null
  | boolean {depth : Nat} (value : Bool) : Readable characters depth (boolean value)
  | integer {depth : Nat} {value : Int} (short : value.natAbs < 10 ^ digitLimit) :
      Readable characters depth (integer value)
  | real {depth : Nat} (value : Binary64) : Readable characters depth (real value)
  | text {depth : Nat} {value : Text} (joined : characters → value.isJoined = true) :
      Readable characters depth (text value)
  | list {depth : Nat} {items : List Json} (all : ∀ item ∈ items, Readable characters depth item) :
      Readable characters (depth + 1) (list items)
  | object {depth : Nat} {entries : List (Text × Json)} (once : (Entries.keys entries).Nodup)
      (named : ∀ entry ∈ entries, characters → entry.1.isJoined = true)
      (all : ∀ entry ∈ entries, Readable characters depth entry.2) :
      Readable characters (depth + 1) (object entries)

section
variable {characters : Prop} {depth : Nat} {value : Json}

theorem Readable.distinct (readable : Readable characters depth value) : value.Distinct := by
  induction readable with
  | null => exact .null
  | boolean value => exact .boolean value
  | integer short => exact .integer _
  | real value => exact .real value
  | text joined => exact .text _
  | list all ih => exact .list ih
  | object once named all ih => exact .object once ih

theorem Readable.joined (readable : Readable characters depth value) (sure : characters) :
    value.Joined := by
  induction readable with
  | null => exact .null
  | boolean value => exact .boolean value
  | integer short => exact .integer _
  | real value => exact .real value
  | text joined => exact .text (joined sure)
  | list all ih => exact .list ih
  | object once named all ih => exact .object (fun entry here => named entry here sure) ih

end

def Answers {α : Type} (P : α → Prop) (depth : Nat) (t : Text) :
    Except ReadError (α × Text) → Prop
  | .ok (value, rest) => P value ∧ rest <:+ t
  | .error (.digits count) => digitLimit < count ∧ t.HasRun count
  | .error .nested => depth < t.openings
  | .error (.malformed ..) => True

namespace Answers
variable {α β : Type} {P : α → Prop} {Q : β → Prop} {depth : Nat} {s t : Text}
  {result : Except ReadError (α × Text)}

theorem suffix (answers : Answers P depth s result) (part : s <:+ t) :
    Answers P depth t result := by
  match result, answers with
  | .ok _, ⟨held, left⟩ => exact ⟨held, left.trans part⟩
  | .error (.digits _), ⟨beyond, has⟩ => exact ⟨beyond, has.mono part.isInfix⟩
  | .error .nested, deep => exact Nat.lt_of_lt_of_le deep (Text.openings_le part)
  | .error (.malformed ..), _ => trivial

theorem map (answers : Answers P depth t result) {f : α × Text → β}
    (kept : ∀ value rest, P value → Q (f (value, rest))) :
    Answers Q depth t (result.map fun r => (f r, r.2)) := by
  match result, answers with
  | .ok (value, rest), ⟨held, left⟩ => exact ⟨kept value rest held, left⟩
  | .error (.digits _), beyond => exact beyond
  | .error .nested, deep => exact deep
  | .error (.malformed ..), _ => trivial

theorem strengthen (answers : Answers P depth t result) {S : α → Prop}
    (held : ∀ value rest, result = .ok (value, rest) → S value) : Answers S depth t result := by
  match result, answers with
  | .ok (value, rest), ⟨_, left⟩ => exact ⟨held value rest rfl, left⟩
  | .error (.digits _), beyond => exact beyond
  | .error .nested, deep => exact deep
  | .error (.malformed ..), _ => trivial

theorem bind (answers : Answers P depth t result)
    {next : α × Text → Except ReadError (β × Text)}
    (then_ : ∀ value rest, P value → rest <:+ t → Answers Q depth t (next (value, rest))) :
    Answers Q depth t (result >>= next) := by
  match result, answers with
  | .ok (value, rest), ⟨held, left⟩ => exact then_ value rest held left
  | .error (.digits _), beyond => exact beyond
  | .error .nested, deep => exact deep
  | .error (.malformed ..), _ => trivial

/-- A reader that opens one level more goes past the bracket that opens it. -/
theorem opened {c : CodePoint} (answers : Answers P depth t result)
    (opens : c = .scalar '[' ∨ c = .scalar '\x7b') : Answers P (depth + 1) (c :: t) result := by
  have part : t <:+ c :: t := List.suffix_cons c t
  match result, answers with
  | .ok _, ⟨held, left⟩ => exact ⟨held, left.trans part⟩
  | .error (.digits _), ⟨beyond, has⟩ => exact ⟨beyond, has.mono part.isInfix⟩
  | .error .nested, deep =>
    rw [Answers, Text.openings_cons opens]
    exact Nat.succ_lt_succ deep
  | .error (.malformed ..), _ => trivial

end Answers

theorem skipSpace_suffix (t : Text) : skipSpace t <:+ t := List.dropWhile_suffix _

section
variable {characters : Prop}

private def Told (characters : Prop) (t : Text) : Prop := characters → t.isScalar = true

private theorem Told.suffix {s t : Text} (told : Told characters t) (part : s <:+ t) :
    Told characters s :=
  fun sure => Text.isScalar_of_suffix part (told sure)

private theorem answers_string (depth : Nat) (t : Text) :
    Answers (fun _ => True) depth t (readString t) := by
  fun_induction readString t with
  | case1 | case3 | case4 | case9 | case11 | case12 | case13 | case14 => trivial
  | case2 rest => exact ⟨trivial, List.suffix_cons _ rest⟩
  | case5 | case6 | case7 | case8 | case10 | case15 =>
    rename_i ih
    exact (ih.map fun _ _ _ => trivial).suffix (by simp [List.suffix_cons_iff])

private theorem answers_quoted (depth : Nat) {t : Text} (told : Told characters t) :
    Answers (fun s => characters → s.isJoined = true) depth t (readQuoted t) := by
  have answers := answers_string depth t
  unfold readQuoted
  split
  · trivial
  · exact answers.strengthen fun _ _ read sure => isJoined_readString (told sure) read

private theorem takeWhole_run (t : Text) :
    ∃ run, t = run ++ (takeWhole t).2 ∧ run.length = (takeWhole t).1.length ∧
      ∀ c ∈ run, c.asciiDigit?.isSome := by
  unfold takeWhole
  split
  · exact ⟨[.scalar '0'], rfl, rfl, by decide⟩
  · exact Text.takeDigits_run _

private theorem takeFraction_suffix (t : Text) : (takeFraction t).2 <:+ t := by
  unfold takeFraction
  split
  · rename_i rest
    have left := Text.takeDigits_suffix rest
    split
    · exact List.suffix_refl _
    · rename_i digits rest' _ taken
      rw [taken] at left
      exact left.trans (List.suffix_cons _ _)
  · exact List.suffix_refl _

private theorem exponent_suffix {t rest : Text} (part : rest <:+ t) (value : List Nat → Int) :
    (match Text.takeDigits rest with
      | ([], _) => (none, t)
      | (digits, rest) => (some (value digits), rest)).2 <:+ t := by
  have left := Text.takeDigits_suffix rest
  split
  · exact List.suffix_refl _
  · rename_i digits rest' _ taken
    rw [taken] at left
    exact left.trans part

private theorem takeExponent_suffix (t : Text) : (takeExponent t).2 <:+ t := by
  unfold takeExponent
  split
  · rename_i e rest
    dsimp only
    have part : rest <:+ .scalar e :: rest := List.suffix_cons _ _
    split
    · split
      · exact exponent_suffix ((List.suffix_cons _ _).trans part) _
      · exact exponent_suffix ((List.suffix_cons _ _).trans part) _
      · exact exponent_suffix part _
    · exact List.suffix_refl _
  · exact List.suffix_refl _

private theorem numberOfDigits_lt {digits : List Nat} (shown : ∀ digit ∈ digits, digit < 10) :
    numberOfDigits 10 digits < 10 ^ digits.length := by
  induction digits using List.reverseRecOn with
  | nil => decide
  | append_singleton digits digit ih =>
    have before := ih fun other here => shown other (List.mem_append_left _ here)
    have last : digit < 10 := shown digit (List.mem_append_right _ List.mem_cons_self)
    have split : numberOfDigits 10 (digits ++ [digit]) = numberOfDigits 10 digits * 10 + digit := by
      simp [numberOfDigits]
    rw [split, List.length_append, List.length_singleton, Nat.pow_succ]
    omega

private theorem takeWhole_lt (t : Text) : ∀ digit ∈ (takeWhole t).1, digit < 10 := by
  unfold takeWhole
  split
  · simp
  · exact Text.takeDigits_lt _

private theorem answers_number (depth : Nat) (negative : Bool) (t : Text) :
    Answers (Readable characters depth) depth t (readNumber negative t) := by
  obtain ⟨run, split_, size, digits⟩ := takeWhole_run t
  have left : (takeExponent (takeFraction (takeWhole t).2).2).2 <:+ t :=
    (takeExponent_suffix _).trans ((takeFraction_suffix _).trans ⟨run, split_.symm⟩)
  have shown := takeWhole_lt t
  unfold readNumber
  split
  · trivial
  · rename_i whole rest _ taken
    rw [taken] at size left shown
    dsimp only
    split
    · split
      · rename_i beyond
        have inside : run <:+: t := by
          rw [split_]
          exact (List.prefix_append _ _).isInfix
        exact ⟨beyond, run, inside, size, digits⟩
      · rename_i within
        refine ⟨.integer ?_, left⟩
        have same : (if negative = true then -(numberOfDigits 10 whole : Int)
            else numberOfDigits 10 whole).natAbs = numberOfDigits 10 whole := by
          split_ifs <;> simp
        rw [same]
        calc numberOfDigits 10 whole < 10 ^ whole.length := numberOfDigits_lt shown
          _ ≤ 10 ^ digitLimit := Nat.pow_le_pow_right (by decide) (Nat.le_of_not_lt within)
    · exact ⟨.real _, left⟩

private theorem answers_plain (depth : Nat) (t : Text) :
    Answers (Readable characters depth) depth t (readPlain t) := by
  unfold readPlain
  split
  · rename_i value rest found
    obtain ⟨word, listed, spelled⟩ := List.exists_of_findSome?_eq_some found
    obtain ⟨rest', dropped, same⟩ := Option.map_eq_some_iff.mp spelled
    cases same
    have all : ∀ word ∈ words, Readable characters depth word.2 := by
      simpa [words] using ⟨.null, .boolean _, .boolean _, .real _, .real _, .real _⟩
    exact ⟨all word listed, Text.dropStart?_suffix dropped⟩
  · split
    · exact (answers_number _ _ _).suffix (List.suffix_cons _ _)
    · exact answers_number _ _ _

private theorem skipSpace_cons {t rest next : Text} {c : CodePoint} (part : rest <:+ t)
    (found : skipSpace rest = c :: next) : next <:+ t := by
  have left := (skipSpace_suffix rest).trans part
  rw [found] at left
  exact (List.suffix_cons _ _).trans left

private structure Readers (characters : Prop) (fuel : Nat) : Prop where
  value : ∀ depth t, Told characters t →
    Answers (Readable characters depth) depth t (readValue fuel depth t)
  items : ∀ depth t, Told characters t →
    Answers (fun items => ∀ item ∈ items, Readable characters depth item) depth t
      (readItems fuel depth t)
  members : ∀ depth t, Told characters t →
    Answers (fun members => ∀ member ∈ members,
      (characters → member.1.isJoined = true) ∧ Readable characters depth member.2) depth t
      (readMembers fuel depth t)

namespace Readers
variable {fuel : Nat}

private theorem value_succ (readers : Readers characters fuel) (depth : Nat) (t : Text)
    (told : Told characters t) :
    Answers (Readable characters depth) depth t (readValue (fuel + 1) depth t) := by
  unfold readValue
  split
  · rename_i rest
    have part : rest <:+ .scalar '"' :: rest := List.suffix_cons _ _
    exact ((answers_quoted depth (told.suffix part)).map fun _ _ joined => .text joined).suffix part
  · rename_i rest
    have part : rest <:+ .scalar '[' :: rest := List.suffix_cons _ _
    have later := (told.suffix part).suffix (skipSpace_suffix rest)
    split
    · rw [Answers, Text.openings_cons (.inl rfl)]
      exact Nat.succ_pos _
    · split
      · rename_i closed
        exact ⟨.list (by simp), skipSpace_cons part closed⟩
      · refine (((readers.items _ _ later).map ?_).suffix (skipSpace_suffix rest)).opened (.inl rfl)
        exact fun _ _ all => .list all
  · rename_i rest
    have part : rest <:+ .scalar '\x7b' :: rest := List.suffix_cons _ _
    have later := (told.suffix part).suffix (skipSpace_suffix rest)
    split
    · rw [Answers, Text.openings_cons (.inr rfl)]
      exact Nat.succ_pos _
    · split
      · rename_i closed
        exact ⟨.object List.nodup_nil (by simp) (by simp), skipSpace_cons part closed⟩
      · refine (((readers.members _ _ later).map ?_).suffix (skipSpace_suffix rest)).opened (.inr rfl)
        exact fun members _ all => .object (Entries.nodup_ofPairs members)
          (fun entry here => (all entry (Entries.mem_ofPairs here)).1)
          fun entry here => (all entry (Entries.mem_ofPairs here)).2
  · exact answers_plain depth t

private theorem items_succ (readers : Readers characters fuel) (depth : Nat) (t : Text)
    (told : Told characters t) :
    Answers (fun items => ∀ item ∈ items, Readable characters depth item) depth t
      (readItems (fuel + 1) depth t) := by
  unfold readItems
  refine (readers.value depth t told).bind fun item rest held part => ?_
  dsimp only
  split
  · rename_i closed
    exact ⟨List.forall_mem_singleton.mpr held, skipSpace_cons part closed⟩
  · rename_i next more
    have left := (skipSpace_suffix next).trans (skipSpace_cons part more)
    exact ((readers.items depth _ (told.suffix left)).suffix left).map
      fun _ _ all => List.forall_mem_cons.mpr ⟨held, all⟩
  · trivial

private theorem members_succ (readers : Readers characters fuel) (depth : Nat) (t : Text)
    (told : Told characters t) :
    Answers (fun members => ∀ member ∈ members,
      (characters → member.1.isJoined = true) ∧ Readable characters depth member.2) depth t
      (readMembers (fuel + 1) depth t) := by
  unfold readMembers
  split
  · have part := List.suffix_cons (CodePoint.scalar '"') ‹_›
    refine ((answers_quoted _ (told.suffix part)).suffix part).bind fun name rest joined part => ?_
    dsimp only
    split
    · rename_i next named
      have left := (skipSpace_suffix next).trans (skipSpace_cons part named)
      refine ((readers.value depth _ (told.suffix left)).suffix left).bind
        fun value rest held part => ?_
      dsimp only
      split
      · rename_i closed
        exact ⟨List.forall_mem_singleton.mpr ⟨joined, held⟩, skipSpace_cons part closed⟩
      · rename_i next more
        have left := (skipSpace_suffix next).trans (skipSpace_cons part more)
        exact ((readers.members depth _ (told.suffix left)).suffix left).map
          fun _ _ all => List.forall_mem_cons.mpr ⟨⟨joined, held⟩, all⟩
      · trivial
    · trivial
  · trivial

/-- The induction is on the fuel, which every call of another reader lowers. -/
private theorem of_fuel (fuel : Nat) : Readers characters fuel := by
  induction fuel with
  | zero => exact ⟨fun _ _ _ => trivial, fun _ _ _ => trivial, fun _ _ _ => trivial⟩
  | succ fuel readers => exact ⟨readers.value_succ, readers.items_succ, readers.members_succ⟩

end Readers

private theorem answers_read {t : Text} (told : Told characters t) :
    Answers (Readable characters depthLimit) depthLimit t ((read t).map (·, [])) := by
  have part := skipSpace_suffix t
  have value := ((Readers.of_fuel (2 * t.length + 2)).value depthLimit _ (told.suffix part)).suffix part
  unfold read
  split_ifs with marked
  · trivial
  · cases result : readValue (2 * t.length + 2) depthLimit (skipSpace t) with
    | error error =>
      rw [result] at value
      match error, value with
      | .digits _, beyond => exact beyond
      | .nested, deep => exact deep
      | .malformed .., _ => trivial
    | ok first =>
      rw [result] at value
      dsimp only [bind, Except.bind, pure, Except.pure]
      split_ifs
      · exact ⟨value.1, List.nil_suffix⟩
      · trivial

end

/-- Reading a text complains of the digits of an integer only if they are more than the limit and
stand in the text, one after the other. -/
theorem read_digits {t : Text} {count : Nat} (failed : read t = .error (.digits count)) :
    digitLimit < count ∧ t.HasRun count := by
  have answers := answers_read (t := t) False.elim
  rwa [failed] at answers

/-- Reading a text complains of its nesting only if more lists and objects open in it than are
followed. -/
theorem read_nested {t : Text} (failed : read t = .error .nested) : depthLimit < t.openings := by
  have answers := answers_read (t := t) False.elim
  rwa [failed] at answers

theorem readable_read {characters : Prop} {t : Text} {value : Json}
    (told : characters → t.isScalar = true) (done : read t = .ok value) :
    Readable characters depthLimit value := by
  have answers := answers_read told
  rw [done] at answers
  exact answers.1

/-- Each object of a value that was read has each of its keys once. -/
theorem distinct_read {t : Text} {value : Json} (done : read t = .ok value) : value.Distinct :=
  (readable_read False.elim done).distinct

end Json
end Intake
