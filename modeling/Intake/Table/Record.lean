import Intake.Text.Blank

/-! Records of a table with separated fields. A field that begins with a quote is quoted and may
hold separators, line ends and doubled quotes; anywhere else a quote is an ordinary character. The
reader is a machine that is fed one line after the other; a line that it cannot take is given up
together with the record it belongs to. -/
namespace Intake.Table

def fieldLimit : Nat := 131072

/-- Where the machine stands in a record. -/
inductive State
  | recordStart
  | fieldStart
  | plain
  | quoted
  /-- after a quote inside a quoted field -/
  | quoteSeen
  /-- after the line end of a record -/
  | lineEnd
  deriving DecidableEq, Repr

/-- The machine with the field and the fields it has collected, latest first. -/
structure Machine where
  state : State
  field : Text
  size : Nat
  fields : List Text

namespace Machine

def start : Machine := ⟨.recordStart, [], 0, []⟩

def save (m : Machine) (state : State) : Machine := ⟨state, [], 0, m.field.reverse :: m.fields⟩

/-- The machine with one character more in the current field, unless the field is full. -/
def add (m : Machine) (c : CodePoint) (state : State) : Option Machine :=
  if fieldLimit ≤ m.size then none else some { m with state, field := c :: m.field, size := m.size + 1 }

def isLineEnd (c : CodePoint) : Bool := c = .scalar '\n' || c = .scalar '\r'

def stepField (separator : CodePoint) (m : Machine) (c : CodePoint) : Option Machine :=
  if isLineEnd c then some (m.save .lineEnd)
  else if c = .scalar '"' then some { m with state := .quoted }
  else if c = separator then some (m.save .fieldStart)
  else m.add c .plain

/-- Takes one character of a line, if it may stand where it does. -/
def step (separator : CodePoint) (m : Machine) (c : CodePoint) : Option Machine :=
  match m.state with
  | .recordStart => if isLineEnd c then some { m with state := .lineEnd } else m.stepField separator c
  | .fieldStart => m.stepField separator c
  | .plain =>
    if isLineEnd c then some (m.save .lineEnd)
    else if c = separator then some (m.save .fieldStart)
    else m.add c .plain
  | .quoted => if c = .scalar '"' then some { m with state := .quoteSeen } else m.add c .quoted
  | .quoteSeen =>
    if c = .scalar '"' then m.add c .quoted
    else if c = separator then some (m.save .fieldStart)
    else if isLineEnd c then some (m.save .lineEnd)
    else none
  | .lineEnd => if isLineEnd c then some m else none

/-- Ends a line: a record that is not inside quotes ends with it. -/
def endLine (m : Machine) : Machine :=
  match m.state with
  | .recordStart | .lineEnd => { m with state := .recordStart }
  | .quoted => m
  | .fieldStart | .plain | .quoteSeen => m.save .recordStart

def takeLine (separator : CodePoint) (m : Machine) : Text → Option Machine
  | [] => some m.endLine
  | c :: rest =>
    match m.step separator c with
    | some m => takeLine separator m rest
    | none => none

end Machine

/-- A record with the number of the line, counted from one, on which it begins. -/
structure Record where
  line : Nat
  fields : List Text
  deriving DecidableEq, Repr

/-- The records of the lines from number `line` on. `first` is the line on which the record in the
machine began. A record that was given up is `none`. -/
def records (separator : CodePoint) (m : Machine) (first line : Nat) :
    List Text → List (Option Record)
  | [] => if m.state = .recordStart then [] else [none]
  | text :: rest =>
    match m.takeLine separator text with
    | none => none :: records separator .start (line + 1) (line + 1) rest
    | some m =>
      if m.state = .recordStart then
        some ⟨first, m.fields.reverse⟩ :: records separator .start (line + 1) (line + 1) rest
      else records separator m first (line + 1) rest

inductive LineEnds
  /-- a line feed -/
  | feed
  /-- a line feed, a carriage return, or both in this order -/
  | any
  deriving DecidableEq

/-- The lines of a text with their ends, `current` being the latest one read so far, backwards. -/
def linesFrom (ends : LineEnds) (current : Text) : Text → List Text
  | [] => if current.isEmpty then [] else [current.reverse]
  | .scalar '\n' :: rest => (CodePoint.scalar '\n' :: current).reverse :: linesFrom ends [] rest
  | .scalar '\r' :: rest =>
    match ends, rest with
    | .any, .scalar '\n' :: rest =>
      (CodePoint.scalar '\n' :: .scalar '\r' :: current).reverse :: linesFrom ends [] rest
    | .any, rest => (CodePoint.scalar '\r' :: current).reverse :: linesFrom ends [] rest
    | .feed, rest => linesFrom ends (.scalar '\r' :: current) rest
  | c :: rest => linesFrom ends (c :: current) rest

def lines (ends : LineEnds) (t : Text) : List Text := linesFrom ends [] t

/-- Whether a record counts: it has two fields or more, or one that is not blank. -/
def Record.counts (r : Record) : Bool :=
  match r.fields with
  | [] => false
  | [field] => !field.isBlank
  | _ => true

/-- A field without the byte-order mark at its start. Behind the mark a quoted field was taken for
an ordinary one, so its quotes are taken off here; a quote without its partner is an error. -/
def unmark? (field : Text) : Option Text :=
  match field with
  | .scalar '\uFEFF' :: .scalar '"' :: rest =>
    (Text.cut? (.scalar '"') rest).map fun parts => parts.1 ++ parts.2
  | .scalar '\uFEFF' :: rest => some rest
  | _ => some field

end Intake.Table
