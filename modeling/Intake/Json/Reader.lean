import Intake.Json.Basic
import Intake.Number.Decimal
import Intake.Text.Digit
import Intake.Text.Encoding

/-! Reading JSON. The grammar is the strict one with the three names of values that are no finite
number. Nesting is limited, and so is the length of an integer; what goes wrong first decides the
error. -/
namespace Intake.Json

inductive SyntaxError
  | valueExpected
  | nameExpected
  | colonExpected
  | commaExpected
  | trailing
  | controlCharacter
  | escape
  | unicodeEscape
  | unterminated
  | byteOrderMark
  deriving DecidableEq, Repr

def SyntaxError.message : SyntaxError → Text
  | valueExpected => "Expecting value"
  | nameExpected => "Expecting property name enclosed in double quotes"
  | colonExpected => "Expecting ':' delimiter"
  | commaExpected => "Expecting ',' delimiter"
  | trailing => "Extra data"
  | controlCharacter => "Invalid control character at"
  | escape => "Invalid \\escape"
  | unicodeEscape => "Invalid \\uXXXX escape"
  | unterminated => "Unterminated string starting at"
  | byteOrderMark => "Unexpected UTF-8 BOM (decode using utf-8-sig)"

inductive ReadError
  /-- a departure from the grammar, at the place with this many code points left -/
  | malformed (error : SyntaxError) (remaining : Nat)
  /-- values nested more deeply than the reader follows -/
  | nested
  /-- an integer with this many digits, more than the limit -/
  | digits (count : Nat)
  deriving DecidableEq, Repr

def digitsMessage (count : Nat) : Text :=
  "Exceeds the limit (4300 digits) for integer string conversion: value has " ++ Text.ofNat count
    ++ " digits; use sys.set_int_max_str_digits() to increase the limit"

def isSpace : CodePoint → Bool
  | .scalar c => c = ' ' ∨ c = '\t' ∨ c = '\n' ∨ c = '\r'
  | .surrogate _ => false

def skipSpace (t : Text) : Text := t.dropWhile isSpace

def escaped? : Char → Option Char
  | '"' => some '"'
  | '\\' => some '\\'
  | '/' => some '/'
  | 'b' => some '\x08'
  | 'f' => some '\x0C'
  | 'n' => some '\n'
  | 'r' => some '\r'
  | 't' => some '\t'
  | _ => none

def unit? (a b c d : CodePoint) : Option Nat := do
  return numberOfDigits 16 [← a.hexDigit?, ← b.hexDigit?, ← c.hexDigit?, ← d.hexDigit?]

def point (n : Nat) : CodePoint := (CodePoint.ofNat? n).getD default

/-- Reads a string after its opening quote; like each reader below it answers what was read and the
text after it. Two escapes that spell a surrogate pair make one code point; an escape is complete
only if a code point follows it. -/
def readString : Text → Except ReadError (Text × Text)
  | [] => .error (.malformed .unterminated 0)
  | .scalar '"' :: rest => .ok ([], rest)
  | .scalar '\\' :: .scalar 'u' :: a :: b :: c :: d :: next :: rest =>
    match unit? a b c d with
    | none => .error (.malformed .unicodeEscape (rest.length + 6))
    | some high =>
      let single := (readString (next :: rest)).map fun r => (point high :: r.1, r.2)
      if (point high).isHigh then
        match next, rest with
        | .scalar '\\', .scalar 'u' :: e :: f :: g :: h :: after :: rest =>
          match unit? e f g h with
          | none => .error (.malformed .unicodeEscape (rest.length + 6))
          | some low =>
            if (point low).isLow then
              (readString (after :: rest)).map fun r => (CodePoint.ofPair high low :: r.1, r.2)
            else single
        | _, _ => single
      else single
  | .scalar '\\' :: .scalar 'u' :: rest => .error (.malformed .unicodeEscape (rest.length + 1))
  | .scalar '\\' :: .scalar c :: rest =>
    match escaped? c with
    | some c => (readString rest).map fun r => (.scalar c :: r.1, r.2)
    | none => .error (.malformed .escape (rest.length + 2))
  | [.scalar '\\'] => .error (.malformed .unterminated 0)
  | .scalar '\\' :: rest => .error (.malformed .escape (rest.length + 1))
  | c :: rest =>
    if c.value < 0x20 then .error (.malformed .controlCharacter (rest.length + 1))
    else (readString rest).map fun r => (c :: r.1, r.2)

/-- A string after its opening quote, an unterminated one being reported at the quote. -/
def readQuoted (t : Text) : Except ReadError (Text × Text) :=
  match readString t with
  | .error (.malformed .unterminated _) => .error (.malformed .unterminated (t.length + 1))
  | result => result

/-- The digits before the point: a single zero, or digits that do not begin with one. -/
def takeWhole : Text → List Nat × Text
  | .scalar '0' :: rest => ([0], rest)
  | t => Text.takeDigits t

/-- The digits after a point; a point without digits is left where it is. -/
def takeFraction (t : Text) : Option (List Nat) × Text :=
  match t with
  | .scalar '.' :: rest =>
    match Text.takeDigits rest with
    | ([], _) => (none, t)
    | (digits, rest) => (some digits, rest)
  | _ => (none, t)

/-- The digits of an exponent after its sign; an exponent without digits is left where it is. -/
def takeExponent (t : Text) : Option Int × Text :=
  let signed (down : Bool) (rest : Text) : Option Int × Text :=
    match Text.takeDigits rest with
    | ([], _) => (none, t)
    | (digits, rest) =>
      let n : Int := numberOfDigits 10 digits
      (some (if down then -n else n), rest)
  match t with
  | .scalar e :: rest =>
    if e = 'e' ∨ e = 'E' then
      match rest with
      | .scalar '-' :: rest => signed true rest
      | .scalar '+' :: rest => signed false rest
      | _ => signed false rest
    else (none, t)
  | _ => (none, t)

def readNumber (negative : Bool) (t : Text) : Except ReadError (Json × Text) :=
  match takeWhole t with
  | ([], _) => .error (.malformed .valueExpected (t.length + if negative then 1 else 0))
  | (whole, rest) =>
    let (fraction, rest) := takeFraction rest
    let (exponent, rest) := takeExponent rest
    match fraction, exponent with
    | none, none =>
      if whole.length > digitLimit then .error (.digits whole.length)
      else
        let n : Int := numberOfDigits 10 whole
        .ok (integer (if negative then -n else n), rest)
    | _, _ =>
      let fraction := fraction.getD []
      let digits := numberOfDigits 10 (whole ++ fraction)
      .ok (real (.ofDecimal negative ⟨digits, exponent.getD 0 - fraction.length⟩), rest)

def words : List (Text × Json) :=
  [("null", null), ("true", boolean true), ("false", boolean false), ("NaN", real .nan),
    ("Infinity", real (.infinite false)), ("-Infinity", real (.infinite true))]

def readPlain (t : Text) : Except ReadError (Json × Text) :=
  match words.findSome? fun word => (Text.dropStart? word.1 t).map (word.2, ·) with
  | some read => .ok read
  | none =>
    match t with
    | .scalar '-' :: rest => readNumber true rest
    | _ => readNumber false t

mutual

/-- A value. `depth` is how many levels may still be opened, and `fuel`, two for each code point,
only bounds the recursion. -/
def readValue (fuel depth : Nat) (t : Text) : Except ReadError (Json × Text) :=
  match fuel with
  | 0 => .error (.malformed .valueExpected t.length)
  | fuel + 1 =>
    match t with
    | .scalar '"' :: rest => (readQuoted rest).map fun r => (text r.1, r.2)
    | .scalar '[' :: rest =>
      match depth with
      | 0 => .error .nested
      | depth + 1 =>
        match skipSpace rest with
        | .scalar ']' :: rest => .ok (list [], rest)
        | rest => (readItems fuel depth rest).map fun r => (list r.1, r.2)
    | .scalar '\x7b' :: rest =>
      match depth with
      | 0 => .error .nested
      | depth + 1 =>
        match skipSpace rest with
        | .scalar '\x7d' :: rest => .ok (object [], rest)
        | rest => (readMembers fuel depth rest).map fun r => (object (Entries.ofPairs r.1), r.2)
    | _ => readPlain t

def readItems (fuel depth : Nat) (t : Text) : Except ReadError (List Json × Text) :=
  match fuel with
  | 0 => .error (.malformed .valueExpected t.length)
  | fuel + 1 => do
    let (item, rest) ← readValue fuel depth t
    let rest := skipSpace rest
    match rest with
    | .scalar ']' :: rest => return ([item], rest)
    | .scalar ',' :: rest =>
      let (items, rest) ← readItems fuel depth (skipSpace rest)
      return (item :: items, rest)
    | _ => throw (.malformed .commaExpected rest.length)

def readMembers (fuel depth : Nat) (t : Text) : Except ReadError (List (Text × Json) × Text) :=
  match fuel with
  | 0 => .error (.malformed .nameExpected t.length)
  | fuel + 1 =>
    match t with
    | .scalar '"' :: rest => do
      let (name, rest) ← readQuoted rest
      let rest := skipSpace rest
      match rest with
      | .scalar ':' :: rest =>
        let (value, rest) ← readValue fuel depth (skipSpace rest)
        let rest := skipSpace rest
        match rest with
        | .scalar '\x7d' :: rest => return ([(name, value)], rest)
        | .scalar ',' :: rest =>
          let (members, rest) ← readMembers fuel depth (skipSpace rest)
          return ((name, value) :: members, rest)
        | _ => throw (.malformed .commaExpected rest.length)
      | _ => throw (.malformed .colonExpected rest.length)
    | _ => .error (.malformed .nameExpected t.length)

end

/-- How many levels of lists and objects are read. -/
def depthLimit : Nat := 990

/-- Reads a text that holds one value, with blanks around it. -/
def read (t : Text) : Except ReadError Json := do
  if t.head? = some Text.byteOrderMark then throw (.malformed .byteOrderMark t.length)
  let (value, rest) ← readValue (2 * t.length + 2) depthLimit (skipSpace t)
  let rest := skipSpace rest
  if rest.isEmpty then return value else throw (.malformed .trailing rest.length)

/-- The wording of an error in the text that was read: the place is given by line, by column, and
by the number of code points before it. -/
def ReadError.message (source : Text) : ReadError → Text
  | malformed error remaining =>
    let before := source.take (source.length - remaining)
    let line := before.count (.scalar '\n') + 1
    let column := (before.reverse.takeWhile (· ≠ .scalar '\n')).length + 1
    error.message ++ ": line " ++ Text.ofNat line ++ " column " ++ Text.ofNat column ++ " (char "
      ++ Text.ofNat before.length ++ ")"
  | nested => "maximum recursion depth exceeded"
  | digits count => digitsMessage count

end Intake.Json
