import Intake.Calendar
import Intake.Text.Blank
import Intake.Text.Case
import Intake.Text.Digit

/-! Reading a day, or a day and a time, in the written forms that operators use: year first, month
first, with the name of the month, or by its quarter. A year of two digits is one near the current
one, and a time without a day is one of the current day. A reader takes the start of a text and
answers what it read and the text after it. -/
namespace Intake.Calendar

/-- What a written date says: a day and, if there is one, a time with its distance from universal
time. -/
structure Reading where
  day : Day
  /-- nanoseconds since midnight -/
  time : Int
  /-- nanoseconds by which the written time is ahead of universal time -/
  offset : Int

/-- The digits at the start of a text: how many there are, and their number. -/
def digits? (t : Text) : Option (Nat × Nat × Text) :=
  match Text.takeDigits t with
  | ([], _) => none
  | (digits, rest) => some (digits.length, numberOfDigits 10 digits, rest)

def short? (t : Text) : Option (Nat × Text) :=
  match digits? t with
  | some (length, n, rest) => if length ≤ 2 then some (n, rest) else none
  | none => none

def isLetter (c : CodePoint) : Bool :=
  (0x41 ≤ c.value && c.value ≤ 0x5A) || (0x61 ≤ c.value && c.value ≤ 0x7A)

def takeWord (t : Text) : Text × Text :=
  (Text.lower (t.takeWhile isLetter), t.dropWhile isLetter)

def skipBlanks (t : Text) : Text := t.dropWhile CodePoint.isBlank

def monthNames : List Text :=
  ["january", "february", "march", "april", "may", "june", "july", "august", "september",
    "october", "november", "december"]

def weekdayNames : List Text :=
  ["monday", "tuesday", "wednesday", "thursday", "friday", "saturday", "sunday"]

/-- The place of a word in a list of names, each known in full or by its first three letters. -/
def nameIndex? (names : List Text) (word : Text) : Option Nat :=
  names.findIdx? fun name => word = name || word = name.take 3

def month? (word : Text) : Option Nat :=
  if word = Text.ofString "sept" then some 9 else (nameIndex? monthNames word).map (· + 1)

/-- Nanoseconds of the digits after a decimal mark; digits after the ninth are cut. -/
def fraction (digits : List Nat) : Int :=
  numberOfDigits 10 ((digits.take 9).rightpad 9 0)

def timeOfDay? (hour minute second : Nat) (nanoseconds : Int) : Option Int :=
  if hour < 24 ∧ minute < 60 ∧ second < 60 then
    some (((hour * 60 + minute) * 60 + second : Nat) * Instant.secondLength + nanoseconds)
  else none

def takeFraction (t : Text) : Option (Int × Text) :=
  match t with
  | .scalar mark :: rest =>
    if mark = '.' ∨ mark = ',' then
      match Text.takeDigits rest with
      | ([], _) => none
      | (digits, rest) => some (fraction digits, rest)
    else some (0, t)
  | _ => some (0, t)

/-- Hour, minute, second and fraction of a time, in one run of digits or with colons. -/
def clock? (t : Text) : Option ((Nat × Nat × Nat × Int) × Text) := do
  let (length, n, rest) ← digits? t
  match length with
  | 4 => return ((n / 100, n % 100, 0, 0), rest)
  | 6 =>
    let (part, rest) ← takeFraction rest
    return ((n / 10000, n / 100 % 100, n % 100, part), rest)
  | 1 | 2 =>
    match rest with
    | .scalar ':' :: rest =>
      let (minute, rest) ← short? rest
      match rest with
      | .scalar ':' :: rest =>
        let (second, rest) ← short? rest
        let (part, rest) ← takeFraction rest
        return ((n, minute, second, part), rest)
      | _ => return ((n, minute, 0, 0), rest)
    | _ => return ((n, 0, 0, 0), rest)
  | _ => none

/-- The hour of the day for an hour of a half day: midnight and noon are written as twelve. -/
def halfDay? (afternoon : Bool) (hour : Nat) : Option Nat :=
  if 1 ≤ hour ∧ hour ≤ 12 then some (hour % 12 + if afternoon then 12 else 0) else none

/-- The distance from universal time: hours, and minutes with or without a colon. An odd number of
digits ends with the minutes. -/
def offset? (t : Text) : Option Int := do
  let (length, n, rest) ← digits? t
  let (hours, minutes) ← match length, rest with
    | 4, [] => some (n / 100, n % 100)
    | 3, [] => some (n / 10, n % 10)
    | 1, [] | 2, [] => some (n, 0)
    | 1, .scalar ':' :: rest | 2, .scalar ':' :: rest =>
      match short? rest with
      | some (minutes, []) => some (n, minutes)
      | _ => none
    | _, _ => none
  if hours < 24 ∧ minutes < 60 then
    return ((hours * 60 + minutes) * 60 : Nat) * Instant.secondLength
  else none

/-- The zone at the end of a date: nothing, a name of universal time, or a signed distance. -/
def zone? (t : Text) : Option Int :=
  match t with
  | [] => some 0
  | .scalar '+' :: rest => offset? rest
  | .scalar '-' :: rest => (offset? rest).map (- ·)
  | _ =>
    let names : List Text := ["Z", "z", "UTC", "GMT"]
    if names.contains t then some 0 else none

/-- A time with an optional half-day mark and zone, up to the end of the text. An hour of a single
digit needs minutes or the mark. -/
def time? (t : Text) : Option (Int × Int) := do
  let ((hour, minute, second, part), rest) ← clock? t
  let after := skipBlanks rest
  let (word, afterWord) := takeWord after
  let afternoon? := if word = Text.ofString "am" then some false
    else if word = Text.ofString "pm" then some true else none
  match afternoon? with
  | some afternoon =>
    let hour ← halfDay? afternoon hour
    return (← timeOfDay? hour minute second part, ← zone? (skipBlanks afterWord))
  | none =>
    guard (rest.length + 1 < t.length)
    return (← timeOfDay? hour minute second part, ← zone? after)

/-- What may follow a day: nothing, a bare mark of a time, or a time after the mark or blanks. -/
def afterDay? (day : Day) (t : Text) : Option Reading :=
  match t with
  | [] => some ⟨day, 0, 0⟩
  | .scalar mark :: rest =>
    if mark = 'T' ∨ mark = 't' then
      if rest.isEmpty then some ⟨day, 0, 0⟩
      else (time? rest).map fun r => ⟨day, r.1, r.2⟩
    else if (CodePoint.scalar mark).isBlank then
      (time? (skipBlanks rest)).map fun r => ⟨day, r.1, r.2⟩
    else none
  | _ => none

def isSeparator (c : CodePoint) : Bool :=
  c = .scalar '-' || c = .scalar '/' || c = .scalar '.'

/-- A day that begins with its four-digit year, the separator being known. -/
def yearFirst? (year : Nat) (separator : CodePoint) (t : Text) : Option Reading := do
  let (month, rest) ← short? t
  let whole := afterDay? ⟨year, month, 1⟩ rest
  match rest with
  | c :: more =>
    if c = separator then
      let (day, rest) ← short? more
      afterDay? ⟨year, month, day⟩ rest
    else whole
  | [] => whole

/-- A day written in one run of digits, with the time in the same run or after it. -/
def compact? (length n : Nat) (rest : Text) : Option Reading :=
  let day (n : Nat) : Day := ⟨(n / 10000 : Nat), n / 100 % 100, n % 100⟩
  let timed (date hour minute second : Nat) : Option Reading := do
    let time ← timeOfDay? hour minute second 0
    return ⟨day date, time, ← zone? (skipBlanks rest)⟩
  match length with
  | 8 => afterDay? (day n) rest
  | 12 => timed (n / 10000) (n / 100 % 100) (n % 100) 0
  | 14 => timed (n / 1000000) (n / 10000 % 100) (n / 100 % 100) (n % 100)
  | _ => none

/-- The year that a number of digits says: of two, the one that ends in them and is less than fifty
years from the current one. -/
def year? (current : Int) (length digits : Nat) : Option Int :=
  if length = 4 then some digits
  else if length ≤ 2 then
    let year := current - current % 100 + digits
    some (if current + 50 ≤ year then year - 100 else if year < current - 50 then year + 100 else year)
  else none

/-- A day that begins with one or two digits: month, day and year, or day, month and year if the
first cannot be a month; or month and year. -/
def monthFirst? (current : Int) (first : Nat) (separator : CodePoint) (t : Text) :
    Option Reading := do
  let (length, second, rest) ← digits? t
  if length = 4 then
    if separator = .scalar '.' then none else afterDay? ⟨second, first, 1⟩ rest
  else
    let (second, rest) ← short? t
    match rest with
    | c :: more =>
      guard (c = separator)
      let (length, digits, rest) ← digits? more
      let year ← year? current length digits
      let (month, day) := if first > 12 then (second, first) else (first, second)
      afterDay? ⟨year, month, day⟩ rest
    | [] => none

inductive Part
  | number (length value : Nat)
  | month (index : Nat)

/-- What may stand between the parts: blanks, marks, `of`, and the ending of an ordinal. -/
def skipBetween (t : Text) : Text :=
  let isMark (c : CodePoint) : Bool := c.isBlank || isSeparator c || c = .scalar ','
  let (word, rest) := takeWord t
  let endings : List Text := ["st", "nd", "rd", "th"]
  let t := if endings.contains word then rest else t
  let marked := t.dropWhile isMark
  let (word, rest) := takeWord marked
  if word = Text.ofString "of" then rest.dropWhile isMark else marked

/-- The next part of a date, if one follows that is not the hour of a time. -/
def part? (t : Text) : Option (Part × Text) :=
  match digits? t with
  | some (length, n, rest) =>
    if rest.head? = some (.scalar ':') then none else some (.number length n, rest)
  | none =>
    let (word, rest) := takeWord t
    (month? word).map fun index => (.month index, rest)

def parts (count : Nat) (t : Text) : List Part × Text :=
  match count with
  | 0 => ([], t)
  | count + 1 =>
    match part? (skipBetween t) with
    | some (part, rest) =>
      let (more, rest) := parts count rest
      (part :: more, rest)
    | none => ([], t)

/-- The day that parts with the name of a month say. A year has four digits, or two behind the day.
-/
def named? (current : Int) : List Part → Option Day
  | [.month month, .number 4 year] => some ⟨year, month, 1⟩
  | [.number 4 year, .month month] => some ⟨year, month, 1⟩
  | [.month month, .number 4 year, .number _ day] => some ⟨year, month, day⟩
  | [.number 4 year, .month month, .number _ day] => some ⟨year, month, day⟩
  | [.month month, .number _ day, .number length digits]
  | [.number _ day, .month month, .number length digits] =>
    (year? current length digits).map fun year => ⟨year, month, day⟩
  | _ => none

/-- A day with the name of its month, after an optional name of a weekday. -/
def withName? (current : Int) (t : Text) : Option Reading := do
  let (word, rest) := takeWord t
  let t := if (nameIndex? weekdayNames word).isSome then
      (if rest.head? = some (.scalar ',') ∨ rest.head? = some (.scalar '.') then rest.drop 1 else rest)
    else t
  let (found, rest) := parts 3 (skipBlanks t)
  let day ← named? current found
  let rest := match rest with
    | .scalar ',' :: more => more
    | _ => rest
  afterDay? day rest

/-- The first day of a quarter, which follows a year of two or four digits. -/
def quarter? (t : Text) : Option Day := do
  let (length, n, rest) ← digits? t
  let rest := match rest with
    | .scalar '-' :: more => more
    | _ => rest
  match rest with
  | [.scalar mark, digit] =>
    let (_, quarter, _) ← digits? [digit]
    guard ((mark = 'Q' ∨ mark = 'q') ∧ 1 ≤ quarter ∧ quarter ≤ 4)
    let year ← if length = 4 then some n else if length = 2 then some (2000 + n) else none
    return ⟨year, 3 * quarter - 2, 1⟩
  | _ => none

def reading? (today : Day) (t : Text) : Option Reading :=
  match digits? t with
  | none => withName? today.year t
  | some (length, n, rest) =>
    let numeric : Option Reading :=
      if 4 < length then compact? length n rest
      else if length = 4 then
        match rest with
        | c :: more => if isSeparator c then yearFirst? n c more else none
        | [] => afterDay? ⟨n, 1, 1⟩ []
      else if length ≤ 2 then
        match rest with
        | .scalar ':' :: _ => (time? t).map fun r => ⟨today, r.1, r.2⟩
        | c :: more => if isSeparator c then monthFirst? today.year n c more else none
        | [] => none
      else none
    match numeric, quarter? t with
    | some reading, _ => some reading
    | none, some day => some ⟨day, 0, 0⟩
    | none, none => if 4 < length then none else withName? today.year t

/-- The instant that a text without blanks around it says, read at an instant. One that is no whole
number of microseconds must be within reach of a count of nanoseconds. -/
def instant? (current : Instant) (t : Text) : Option Instant := do
  let words : List Text := ["now", "today"]
  if words.contains t then return current
  let reading ← reading? (Day.ofNumber (current.nanoseconds / Instant.dayLength)) t
  guard reading.day.isValid
  let instant : Instant :=
    ⟨reading.day.number * Instant.dayLength + reading.time - reading.offset⟩
  guard (instant.nanoseconds % 1000 = 0 ∨ instant.fitsNanoseconds)
  return instant

/-- The calendar by which the program reads dates where no other is given. -/
def own : Calendar := fun now => instant? ⟨now * 1000000⟩

end Intake.Calendar
