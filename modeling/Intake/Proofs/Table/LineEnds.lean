import Intake.Table.Record
import Mathlib.Data.List.TakeWhile
import Mathlib.Tactic.SplitIfs

/-! Two ways to cut a text into lines: at line feeds, or at every line end. The records of the lines
are the same but for blank ones as long as the reader takes the longer lines, or line ends stand only
at their ends. Inside quotes a line end is a character like any other; outside of them the reader
refuses what follows a line end on the same line, which is where the two ways part. -/
namespace Intake.Table

open Machine (isLineEnd)

variable {separator : CodePoint} {m n : Machine} {text rest : Text}

/-! Lines. -/

def EndsLine (c : CodePoint) (rest : Text) : Prop :=
  c = .scalar '\n' ∨ c = .scalar '\r' ∧ ∀ more, rest ≠ .scalar '\n' :: more

theorem linesFrom_any_append {c : CodePoint} (ending : EndsLine c rest) (current before : Text) :
    linesFrom .any current (before ++ c :: rest)
      = linesFrom .any current (before ++ [c]) ++ lines .any rest := by
  induction current, before using linesFrom.induct .any with
  | case1 current | case2 current =>
    rcases ending with rfl | ⟨rfl, clear⟩
    · rfl
    · rw [List.nil_append, List.nil_append, linesFrom.eq_4 _ _ clear, linesFrom.eq_4 _ [] (by simp)]
      rfl
  | case3 current before ih | case4 current before _ ih =>
    rw [List.cons_append, List.cons_append]
    simp [linesFrom, ih]
  | case5 current before other _ ih =>
    cases before with
    | nil =>
      rcases ending with rfl | ⟨rfl, clear⟩
      · rfl
      · have apart (tail : Text) : ∀ more, CodePoint.scalar '\r' :: tail ≠ .scalar '\n' :: more := by
          simp
        simp only [List.nil_append, List.cons_append]
        rw [linesFrom.eq_4 _ _ (apart _), linesFrom.eq_4 _ _ (apart _), linesFrom.eq_4 _ _ clear,
          linesFrom.eq_4 _ [] (by simp)]
        rfl
    | cons c before =>
      have apart (tail rest : Text) : c :: tail = .scalar '\n' :: rest → False :=
        fun same => other before ((List.cons.inj same).1 ▸ rfl)
      simp only [List.cons_append] at ih ⊢
      rw [linesFrom.eq_4 _ _ (apart _), linesFrom.eq_4 _ _ (apart _), ih, List.cons_append]
  | case6 => contradiction
  | case7 current c before feed carriage ih =>
    rw [List.cons_append, List.cons_append, linesFrom.eq_6 _ _ _ _ feed carriage,
      linesFrom.eq_6 _ _ _ _ feed carriage, ih]

theorem lines_any_feed (before rest : Text) :
    lines .any (before ++ .scalar '\n' :: rest)
      = lines .any (before ++ [.scalar '\n']) ++ lines .any rest :=
  linesFrom_any_append (.inl rfl) [] before

/-- A carriage return ends a line, alone or with the line feed behind it. -/
theorem lines_any_carriage (before rest : Text) : ∃ ends rest', ends ≠ [] ∧
    (∀ c ∈ ends, isLineEnd c = true) ∧
    lines .any (before ++ .scalar '\r' :: rest) = lines .any (before ++ ends) ++ lines .any rest' := by
  by_cases paired : ∃ more, rest = .scalar '\n' :: more
  · obtain ⟨more, rfl⟩ := paired
    refine ⟨[.scalar '\r', .scalar '\n'], more, List.cons_ne_nil _ _, by decide, ?_⟩
    have cut := lines_any_feed (before ++ [.scalar '\r']) more
    simpa only [List.append_assoc, List.singleton_append] using cut
  · exact ⟨[.scalar '\r'], rest, List.cons_ne_nil _ _, by decide,
      linesFrom_any_append (.inr ⟨rfl, not_exists.mp paired⟩) [] before⟩

/-- The lines of a text end where those do that a line feed ends, and at other line ends within
them. -/
theorem lines_any (t : Text) : lines .any t = (lines .feed t).flatMap (lines .any) := by
  have whole (current : Text) :
      lines .any (current.reverse ++ t) = (linesFrom .feed current t).flatMap (lines .any) := by
    induction current, t using linesFrom.induct .feed with
    | case1 current empty =>
      obtain rfl := List.isEmpty_iff.mp empty
      rfl
    | case2 current shown => simp [linesFrom, shown]
    | case3 current rest ih =>
      simp only [linesFrom, List.flatMap_cons, List.reverse_cons]
      rw [← show lines .any rest = _ from ih]
      exact lines_any_feed current.reverse rest
    | case4 | case5 => contradiction
    | case6 current rest _ ih => simpa [linesFrom] using ih
    | case7 current c rest feed carriage ih =>
      rw [linesFrom.eq_6 _ _ _ _ feed carriage, ← ih]
      simp
  exact whole []

theorem linesFrom_feed_cons (current : Text) (c : CodePoint) (rest : Text) :
    linesFrom .feed current (c :: rest) =
      if c = .scalar '\n' then (c :: current).reverse :: linesFrom .feed [] rest
      else linesFrom .feed (c :: current) rest := by
  split_ifs with feed
  · rw [feed]
    rfl
  · by_cases carriage : c = .scalar '\r'
    · subst carriage
      rw [linesFrom]
    · rw [linesFrom]
      · simpa using feed
      · simpa using carriage

theorem lines_feed_cons {body : Text} (clear : CodePoint.scalar '\n' ∉ body) (rest : Text) :
    lines .feed (body ++ .scalar '\n' :: rest) = (body ++ [.scalar '\n']) :: lines .feed rest := by
  have whole (current : Text) : linesFrom .feed current (body ++ .scalar '\n' :: rest)
      = (current.reverse ++ (body ++ [.scalar '\n'])) :: lines .feed rest := by
    induction body generalizing current with
    | nil =>
      rw [List.nil_append, linesFrom_feed_cons, if_pos rfl, List.reverse_cons]
      rfl
    | cons c body ih =>
      obtain ⟨other, later⟩ := not_or.mp (fun here => clear (List.mem_cons.mpr here))
      rw [List.cons_append, linesFrom_feed_cons, if_neg (Ne.symm other), ih later]
      simp
  exact whole []

/-- The first line of a text, whatever stands in front of it. -/
theorem exists_line (ends : LineEnds) {t : Text} (shown : t ≠ []) :
    ∃ line rest, line ≠ [] ∧ line <+: t ∧
      ∀ current, linesFrom ends current t = (current.reverse ++ line) :: rest := by
  induction t with
  | nil => exact absurd rfl shown
  | cons c t ih =>
    -- A character that ends no line stands in front of what is left of its line.
    have onward (same : ∀ current, linesFrom ends current (c :: t) = linesFrom ends (c :: current) t) :
        ∃ line rest, line ≠ [] ∧ line <+: c :: t ∧
          ∀ current, linesFrom ends current (c :: t) = (current.reverse ++ line) :: rest := by
      by_cases last : t = []
      · subst last
        exact ⟨[c], [], List.cons_ne_nil _ _, List.prefix_rfl, fun current => by simp [same, linesFrom]⟩
      · obtain ⟨line, rest, _, before, cut⟩ := ih last
        exact ⟨c :: line, rest, List.cons_ne_nil _ _, (List.prefix_cons_inj c).mpr before,
          fun current => by simp [same, cut]⟩
    by_cases feed : c = .scalar '\n'
    · subst feed
      exact ⟨[.scalar '\n'], linesFrom ends [] t, List.cons_ne_nil _ _, by simp,
        fun current => by simp [linesFrom]⟩
    · by_cases carriage : c = .scalar '\r'
      · subst carriage
        cases ends with
        | feed => exact onward fun current => by rw [linesFrom]
        | any =>
          by_cases paired : ∃ more, t = .scalar '\n' :: more
          · obtain ⟨more, rfl⟩ := paired
            exact ⟨[.scalar '\r', .scalar '\n'], linesFrom .any [] more, List.cons_ne_nil _ _, by simp,
              fun current => by simp [linesFrom]⟩
          · exact ⟨[.scalar '\r'], linesFrom .any [] t, List.cons_ne_nil _ _, by simp, fun current => by
              rw [linesFrom.eq_4 _ _ (not_exists.mp paired), List.reverse_cons]⟩
      · exact onward fun current => linesFrom.eq_6 _ _ _ _ feed carriage

structure FirstLine (body ends rest : Text) : Prop where
  cut : lines .any (body ++ ends ++ rest) = (body ++ ends) :: lines .any rest
  plain : ∀ c ∈ body, isLineEnd c = false
  all : ∀ c ∈ ends, isLineEnd c = true
  shown : body ++ ends ≠ []
  last : ends = [] → rest = []

private theorem linesFrom_any_cons (current text : Text) (plain : ∀ c ∈ current, isLineEnd c = false)
    (shown : current ≠ [] ∨ text ≠ []) :
    ∃ body ends rest, current.reverse ++ text = body ++ ends ++ rest ∧
      linesFrom .any current text = (body ++ ends) :: lines .any rest ∧
      (∀ c ∈ body, isLineEnd c = false) ∧ (∀ c ∈ ends, isLineEnd c = true) ∧
      body ++ ends ≠ [] ∧ (ends = [] → rest = []) := by
  have reversed {current : Text} (plain : ∀ c ∈ current, isLineEnd c = false) :
      ∀ c ∈ current.reverse, isLineEnd c = false := by simpa using plain
  induction current, text using linesFrom.induct .any with
  | case1 current empty => simp [List.isEmpty_iff.mp empty] at shown
  | case2 current some =>
    have some : current ≠ [] := by simpa using some
    exact ⟨current.reverse, [], [], by simp, by simp [linesFrom, some, lines], reversed plain,
      by simp, by simpa using some, fun _ => rfl⟩
  | case3 current rest =>
    exact ⟨current.reverse, [.scalar '\n'], rest, by simp, by simp [linesFrom, lines],
      reversed plain, by decide, by simp, nofun⟩
  | case4 current rest =>
    exact ⟨current.reverse, [.scalar '\r', .scalar '\n'], rest, by simp, by simp [linesFrom, lines],
      reversed plain, by decide, by simp, nofun⟩
  | case5 current rest other =>
    refine ⟨current.reverse, [.scalar '\r'], rest, by simp, ?_, reversed plain, by decide, by simp,
      nofun⟩
    rw [linesFrom.eq_4 _ _ other]
    simp [lines]
  | case6 => contradiction
  | case7 current c rest feed carriage ih =>
    have other : isLineEnd c = false := by simpa [isLineEnd] using ⟨feed, carriage⟩
    have all : ∀ d ∈ c :: current, isLineEnd d = false := List.forall_mem_cons.mpr ⟨other, plain⟩
    obtain ⟨body, ends, rest', whole, first, parts⟩ := ih all (.inl (List.cons_ne_nil _ _))
    refine ⟨body, ends, rest', ?_, ?_, parts⟩
    · simpa using whole
    · rw [linesFrom.eq_6 _ _ _ _ feed carriage, first]

/-- Induction on a text by its lines. -/
theorem lines_any_induction {motive : Text → Prop} (empty : motive [])
    (line : ∀ body ends rest, FirstLine body ends rest → motive rest →
      motive (body ++ ends ++ rest)) (text : Text) : motive text := by
  induction size : text.length using Nat.strongRecOn generalizing text with
  | ind size' ih =>
    by_cases blank : text = []
    · exact blank ▸ empty
    · obtain ⟨body, ends, rest, whole, cut, plain, all, shown, last⟩ :=
        linesFrom_any_cons [] text (by simp) (.inr blank)
      obtain rfl : text = body ++ ends ++ rest := whole
      have short : rest.length < size' := by
        have some := List.length_pos_iff.mpr shown
        simp only [List.length_append] at some size
        omega
      exact line body ends rest ⟨cut, plain, all, shown, last⟩ (ih _ short rest rfl)

/-! Single lines. -/

def Machine.steps (separator : CodePoint) (m : Machine) (text : Text) : Option Machine :=
  text.foldlM (step separator) m

theorem takeLine_append (m : Machine) (text rest : Text) :
    m.takeLine separator (text ++ rest)
      = (m.steps separator text).bind (·.takeLine separator rest) := by
  induction text generalizing m with
  | nil => rfl
  | cons c text ih =>
    rw [List.cons_append, Machine.takeLine, Machine.steps, List.foldlM_cons]
    cases m.step separator c with
    | none => rfl
    | some next => exact ih next

theorem takeLine_eq (m : Machine) (text : Text) :
    m.takeLine separator text = (m.steps separator text).map Machine.endLine := by
  have whole := @takeLine_append separator m text []
  rw [List.append_nil] at whole
  rw [whole]
  cases m.steps separator text <;> rfl

private theorem steps_append (stepped : m.steps separator (text ++ rest) = some n) :
    ∃ k, m.steps separator text = some k ∧ k.steps separator rest = some n := by
  rw [Machine.steps, List.foldlM_append] at stepped
  exact Option.bind_eq_some_iff.mp stepped

private theorem state_of_end {c : CodePoint} (proper : isLineEnd separator = false)
    (ending : isLineEnd c = true) (stepped : m.step separator c = some n) :
    n.state = .quoted ∨ n.state = .lineEnd := by
  have unquote : c ≠ .scalar '"' := by
    rintro rfl
    cases ending
  have other : c ≠ separator := by
    rintro rfl
    simp [ending] at proper
  cases state : m.state <;>
    simp only [Machine.step, state, Machine.stepField, ending, if_true, unquote, other, if_false,
      Option.some.injEq] at stepped
  case quoted =>
    unfold Machine.add at stepped
    split_ifs at stepped
    cases stepped
    exact .inl rfl
  all_goals
    subst stepped
    first | exact .inr rfl | exact .inr state

private theorem state_of_ends {ends : Text} (proper : isLineEnd separator = false)
    (all : ∀ c ∈ ends, isLineEnd c = true) (shown : ends ≠ [])
    (stepped : m.steps separator ends = some n) : n.state = .quoted ∨ n.state = .lineEnd := by
  induction ends generalizing m with
  | nil => exact absurd rfl shown
  | cons c ends ih =>
    rw [Machine.steps, List.foldlM_cons] at stepped
    cases first : m.step separator c with
    | none => simp [first] at stepped
    | some next =>
      have later : next.steps separator ends = some n := by
        simpa [first, Machine.steps] using stepped
      cases ends with
      | nil =>
        cases later
        exact state_of_end proper (all c List.mem_cons_self) first
      | cons d ends =>
        exact ih (fun e here => all e (List.mem_cons_of_mem c here)) (List.cons_ne_nil d ends) later

/-- At the end of a record a machine takes line ends only. -/
theorem takeLine_ended (ended : m.state = .lineEnd) :
    m.takeLine separator text
      = if ∀ c ∈ text, isLineEnd c = true then some m.endLine else none := by
  induction text with
  | nil => simp [Machine.takeLine]
  | cons c text ih =>
    cases ending : isLineEnd c with
    | true => simp [Machine.takeLine, Machine.step, ended, ending, ih]
    | false => simp [Machine.takeLine, Machine.step, ended, ending]

def Calm (text : Text) : Prop := ∀ c ∈ text.dropWhile (!isLineEnd ·), isLineEnd c = true

instance : DecidablePred Calm := fun _ => inferInstanceAs (Decidable (∀ c ∈ _, _))

theorem calm_of_all (all : ∀ c ∈ text, isLineEnd c = true) : Calm text :=
  fun c here => all c (List.dropWhile_sublist _ |>.subset here)

private theorem FirstLine.behind {body ends rest : Text} (line : FirstLine body ends rest)
    (calm : Calm (body ++ ends ++ rest)) : ∀ c ∈ rest, isLineEnd c = true := by
  cases ends with
  | nil => simp [line.last rfl]
  | cons c ends =>
    have ending := line.all c List.mem_cons_self
    rw [Calm, List.append_assoc, List.dropWhile_append_of_pos (by simpa using line.plain),
      List.cons_append, List.dropWhile_cons_of_neg (by simp [ending])] at calm
    exact fun d here => calm d (List.mem_cons_of_mem c (List.mem_append_right ends here))

/-! Records. -/

def AllBlank (blanks : List (Option Record)) : Prop :=
  ∀ r ∈ blanks, ∃ line, r = some ⟨line, []⟩

private theorem takeLine_start {ends : Text} (all : ∀ c ∈ ends, isLineEnd c = true) :
    Machine.start.takeLine separator ends = some .start := by
  cases ends with
  | nil => rfl
  | cons c ends =>
    have ending := all c List.mem_cons_self
    have rest : ∀ d ∈ ends, isLineEnd d = true := fun d here => all d (List.mem_cons_of_mem c here)
    simp only [Machine.takeLine, Machine.step, Machine.start, ending, if_true]
    rw [takeLine_ended rfl, if_pos rest]
    rfl

private theorem records_ends (text : Text) (rest : List Text) (line : Nat)
    (all : ∀ c ∈ text, isLineEnd c = true) :
    ∃ blanks next, AllBlank blanks ∧
      records separator .start line line (lines .any text ++ rest)
        = blanks ++ records separator .start next next rest := by
  induction text using lines_any_induction generalizing line with
  | empty => exact ⟨[], line, nofun, rfl⟩
  | line body ends more first ih =>
    obtain ⟨blanks, next, blank, same⟩ :=
      ih (line + 1) fun c here => all c (List.mem_append_right _ here)
    have taken := @takeLine_start separator (body ++ ends)
      fun c here => all c (List.mem_append_left more here)
    refine ⟨some ⟨line, []⟩ :: blanks, next, List.forall_mem_cons.mpr ⟨⟨line, rfl⟩, blank⟩, ?_⟩
    rw [first.cut, List.cons_append, records, taken]
    dsimp only
    rw [same]
    rfl

theorem endLine_unquoted (unquoted : n.state ≠ .quoted) :
    n.endLine.state = .recordStart := by
  cases state : n.state <;> simp [Machine.endLine, state, Machine.save] at unquoted ⊢

/-- Outside of quotes nothing but line ends can go on a line behind its first line end. -/
private theorem takeLine_outside (proper : isLineEnd separator = false) {body ends more : Text}
    (cut : FirstLine body ends more) (stepped : m.steps separator (body ++ ends) = some n)
    (unquoted : n.state ≠ .quoted)
    (behind : n.takeLine separator more = none → ∀ c ∈ more, isLineEnd c = true) :
    (∀ c ∈ more, isLineEnd c = true) ∧ n.takeLine separator more = some n.endLine := by
  by_cases passed : n.state = .lineEnd
  · have ended : ∀ c ∈ more, isLineEnd c = true := by
      by_contra other
      exact other (behind (by rw [takeLine_ended passed, if_neg other]))
    exact ⟨ended, by rw [takeLine_ended passed, if_pos ended]⟩
  · have last : more = [] := cut.last <| by
      by_contra ending
      obtain ⟨k, _, after⟩ := steps_append stepped
      exact (state_of_ends proper cut.all ending after).elim unquoted passed
    subst last
    exact ⟨nofun, rfl⟩

/-- What the reader makes of one line when it is cut at every line end. -/
theorem records_line (proper : isLineEnd separator = false) (text : Text) (m : Machine)
    (rest : List Text) (first line : Nat) (shown : text ≠ [])
    (firm : m.takeLine separator text = none → Calm text) :
    match m.takeLine separator text with
    | none => ∃ blanks next, AllBlank blanks ∧
        records separator m first line (lines .any text ++ rest)
          = none :: (blanks ++ records separator .start next next rest)
    | some n =>
      if n.state = .recordStart then ∃ blanks next, AllBlank blanks ∧
        records separator m first line (lines .any text ++ rest)
          = some ⟨first, n.fields.reverse⟩ :: (blanks ++ records separator .start next next rest)
      else ∃ next, records separator m first line (lines .any text ++ rest)
          = records separator n first next rest := by
  -- By the lines of the text: the first one is lost, goes on inside quotes, or ends the record, and
  -- in the first and the last case nothing but blank lines can follow it.
  induction text using lines_any_induction generalizing m line with
  | empty => exact absurd rfl shown
  | line body ends more cut ih =>
    have piece := @takeLine_eq separator m (body ++ ends)
    have whole := @takeLine_append separator m (body ++ ends) more
    rw [cut.cut, List.cons_append]
    cases stepped : m.steps separator (body ++ ends) with
    | none =>
      rw [stepped] at piece whole
      obtain ⟨blanks, next, blank, same⟩ :=
        @records_ends separator more rest (line + 1) (cut.behind (firm whole))
      rw [whole]
      exact ⟨blanks, next, blank, by rw [records, piece]; exact congrArg _ same⟩
    | some n =>
      rw [stepped] at piece whole
      rw [Option.bind_some] at whole
      rw [Option.map_some] at piece
      rw [whole] at firm ⊢
      have behind (lost : n.takeLine separator more = none) := cut.behind (firm lost)
      have begun : records separator m first line ((body ++ ends) :: (lines .any more ++ rest))
          = if n.endLine.state = .recordStart then
              some ⟨first, n.endLine.fields.reverse⟩
                :: records separator .start (line + 1) (line + 1) (lines .any more ++ rest)
            else records separator n.endLine first (line + 1) (lines .any more ++ rest) := by
        rw [records, piece]
      rw [begun]
      by_cases quoted : n.state = .quoted
      · have still : n.endLine = n := by simp [Machine.endLine, quoted]
        have within : ¬ n.state = .recordStart := by simp [quoted]
        rw [still, if_neg within]
        by_cases passed : more = []
        · subst passed
          simp only [Machine.takeLine, still, if_neg within]
          exact ⟨line + 1, rfl⟩
        · exact ih n (line + 1) passed fun lost => calm_of_all (behind lost)
      · have finished := endLine_unquoted quoted
        rw [if_pos finished]
        obtain ⟨ended, taken⟩ := takeLine_outside proper cut stepped quoted behind
        obtain ⟨blanks, next, blank, same⟩ := @records_ends separator more rest (line + 1) ended
        rw [taken]
        dsimp only
        rw [if_pos finished]
        exact ⟨blanks, next, blank, congrArg _ same⟩

/-! Texts. -/

def isFirm (separator : CodePoint) (m : Machine) : List Text → Bool
  | [] => true
  | text :: rest =>
    match m.takeLine separator text with
    | none => decide (Calm text) && isFirm separator .start rest
    | some n => isFirm separator (if n.state = .recordStart then .start else n) rest

def countedFields (records : List (Option Record)) : List (List Text) :=
  ((records.filterMap id).filter Record.counts).map Record.fields

structure Alike (before after : List (Option Record)) : Prop where
  head : before.head?.map (Option.map Record.fields) = after.head?.map (Option.map Record.fields)
  counted : countedFields before = countedFields after

theorem countedFields_blanks {blanks : List (Option Record)} (blank : AllBlank blanks)
    (records : List (Option Record)) : countedFields (blanks ++ records) = countedFields records := by
  induction blanks with
  | nil => rfl
  | cons r blanks ih =>
    obtain ⟨⟨line, rfl⟩, rest⟩ := List.forall_mem_cons.mp blank
    exact ih rest

private theorem countedFields_cons {r r' : Option Record}
    (same : r.map Record.fields = r'.map Record.fields) {before after : List (Option Record)}
    (rest : countedFields before = countedFields after) :
    countedFields (r :: before) = countedFields (r' :: after) := by
  match r, r' with
  | none, none => exact rest
  | some ⟨line, fields⟩, some ⟨line', fields'⟩ =>
    obtain rfl : fields = fields' := Option.some.inj same
    have one : Record.counts ⟨line, fields⟩ = Record.counts ⟨line', fields⟩ := rfl
    simp only [countedFields] at rest
    simp only [countedFields, List.filterMap_cons_some (show id (some _) = some _ from rfl),
      List.filter_cons, one]
    split_ifs
    · exact congrArg (fields :: ·) rest
    · exact rest

private theorem Alike.cons {r r' : Option Record} {before after blanks : List (Option Record)}
    (same : r.map Record.fields = r'.map Record.fields) (blank : AllBlank blanks)
    (alike : Alike before after) : Alike (r :: before) (r' :: (blanks ++ after)) where
  head := congrArg some same
  counted := countedFields_cons same (alike.counted.trans (countedFields_blanks blank after).symm)

theorem records_alike (proper : isLineEnd separator = false) {texts : List Text}
    (shown : ∀ text ∈ texts, text ≠ []) (firm : isFirm separator m texts = true)
    (first line first' line' : Nat) :
    Alike (records separator m first line texts)
      (records separator m first' line' (texts.flatMap (lines .any))) := by
  induction texts generalizing m first line first' line' with
  | nil =>
    unfold records
    exact ⟨rfl, rfl⟩
  | cons text rest ih =>
    obtain ⟨here, later⟩ := List.forall_mem_cons.mp shown
    have cut := records_line proper text m (rest.flatMap (lines .any)) first' line' here
    rw [List.flatMap_cons, records]
    rw [isFirm] at firm
    cases taken : m.takeLine separator text with
    | none =>
      simp only [taken, Bool.and_eq_true, decide_eq_true_eq] at firm cut
      obtain ⟨blanks, next, blank, same⟩ := cut fun _ => firm.1
      rw [same]
      exact .cons rfl blank (ih later firm.2 _ _ _ _)
    | some n =>
      simp only [taken] at firm cut ⊢
      split_ifs at firm cut ⊢ with whole
      · obtain ⟨blanks, next, blank, same⟩ := cut nofun
        rw [same]
        exact .cons rfl blank (ih later firm _ _ _ _)
      · obtain ⟨next, same⟩ := cut nofun
        rw [same]
        exact ih later firm _ _ _ _

theorem lines_shown (t : Text) : ∀ text ∈ lines .feed t, text ≠ [] := by
  have all (current : Text) : ∀ text ∈ linesFrom .feed current t, text ≠ [] := by
    induction current, t using linesFrom.induct .feed with
    | case1 current empty => simp [linesFrom, empty]
    | case2 current some => simp_all [linesFrom]
    | case3 current rest ih => simpa [linesFrom] using ih
    | case4 | case5 => contradiction
    | case6 current rest _ ih => simpa [linesFrom] using ih
    | case7 current c rest feed carriage ih => rwa [linesFrom.eq_6 _ _ _ _ feed carriage]
  exact all []

/-- A text that is firm has records that are alike where only line feeds and where all line ends end
its lines. -/
theorem records_lines (proper : isLineEnd separator = false) {t : Text}
    (firm : isFirm separator .start (lines .feed t) = true) :
    Alike (records separator .start 1 1 (lines .feed t))
      (records separator .start 1 1 (lines .any t)) :=
  lines_any t ▸ records_alike proper (lines_shown t) firm 1 1 1 1

end Intake.Table
