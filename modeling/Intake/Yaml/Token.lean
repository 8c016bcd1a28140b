import Intake.Text.Basic

/-! The tokens of a YAML text. Collections in block style are delimited by indentation, which the
tokens make explicit. -/
namespace Intake.Yaml

inductive Fault
  | malformed
  /-- nodes nested too deeply -/
  | nested
  /-- a text that is tagged as a number and is none -/
  | notNumber
  /-- an empty text that is tagged as a number -/
  | emptyNumber
  /-- a text that is tagged as a boolean and is none -/
  | notBoolean
  deriving DecidableEq, Repr

inductive Token
  | versionDirective (major : Nat)
  | tagDirective (handle start : Text)
  | otherDirective
  | documentStart
  | documentEnd
  | blockSequenceStart
  | blockMappingStart
  | blockEnd
  | flowSequenceStart
  | flowSequenceEnd
  | flowMappingStart
  | flowMappingEnd
  | blockEntry
  | flowEntry
  | key
  | value
  | alias (name : Text)
  | anchor (name : Text)
  | tag (handle : Option Text) (suffix : Text)
  | scalar (text : Text) (plain : Bool)
  | streamEnd
  deriving DecidableEq, Repr

def isAllowed (c : Char) : Bool :=
  let n := c.toNat
  c == '\t' || c == '\n' || c == '\r' || (0x20 ≤ n && n ≤ 0x7E) || n == 0x85 ||
    (0xA0 ≤ n && n ≤ 0xFFFD) || 0x10000 ≤ n

def isBreak (c : Char) : Bool :=
  c == '\n' || c == '\x85' || c == '\u2028' || c == '\u2029'

/-- Whether a character, or the end, stands between two tokens. -/
def isGap : Option Char → Bool
  | none => true
  | some c => c == ' ' || c == '\t' || isBreak c

def isLineEnd : Option Char → Bool
  | none => true
  | some c => isBreak c

def isSpaceOrLineEnd (c : Option Char) : Bool := c == some ' ' || isLineEnd c

def isNameChar (c : Char) : Bool := c.isAlphanum || c == '-' || c == '_'

def isAddressChar (c : Char) : Bool :=
  c.isAlphanum || "-;/?:@&=+$,_.!~*'()[]".toList.contains c

/-- A place where a key may have begun that is recognised only at its colon. -/
structure Candidate where
  /-- how many tokens stand before it -/
  position : Nat
  /-- whether nothing but a key can stand there -/
  required : Bool
  index : Nat
  line : Nat
  column : Nat

structure Lexer where
  rest : List Char
  index : Nat
  line : Nat
  column : Nat
  /-- the number of flow collections around this place -/
  flow : Nat
  /-- the column of the innermost block collection, minus one if there is none -/
  indent : Int
  /-- the columns of the collections around it -/
  indents : List Int
  /-- whether a key may begin here -/
  keyAllowed : Bool
  /-- the candidate of each flow collection around this place and of the block, innermost first -/
  candidates : List (Option Candidate)
  tokens : Array Token

abbrev Lex := StateT Lexer (Except Fault)

namespace Lex

def malformed {α : Type} : Lex α := throw .malformed

def require (condition : Bool) : Lex Unit := if condition then pure () else malformed

/-- Repeats a step until it says that it is done, at most so many times. -/
def repeated : Nat → Lex Bool → Lex Unit
  | 0, _ => pure ()
  | n + 1, step => do
    if ← step then repeated n step

/-- Repeats a step as often as there are characters left, and once more. -/
def loop (step : Lex Bool) : Lex Unit := do
  repeated ((← get).rest.length + 1) step

def peekAt (n : Nat) : Lex (Option Char) := return (← get).rest[n]?

def peek : Lex (Option Char) := peekAt 0

def forward : Lex Unit := modify fun s =>
  match s.rest with
  | [] => s
  | c :: rest =>
    if isBreak c then { s with rest, index := s.index + 1, line := s.line + 1, column := 0 }
    else
      let column := if c == '\uFEFF' then s.column else s.column + 1
      { s with rest, index := s.index + 1, column }

def forwardBy : Nat → Lex Unit
  | 0 => pure ()
  | n + 1 => do
    forward
    forwardBy n

def takeWhile (p : Char → Bool) : Lex (List Char) := do
  let taken := (← get).rest.takeWhile p
  forwardBy taken.length
  return taken

def text (cs : List Char) : Text := cs.map .scalar

/-- Takes the end of a line, if one is here: a line feed stands for most ends. -/
def lineBreak : Lex Text := do
  match ← peek with
  | some c =>
    if isBreak c then
      forward
      return text [if c == '\n' || c == '\x85' then '\n' else c]
    else return []
  | none => return []

def atSeparator : Lex Bool := do
  let start := (← get).rest.take 3
  return (start == ['-', '-', '-'] || start == ['.', '.', '.']) && isGap (← peekAt 3)

def emit (token : Token) : Lex Unit := modify fun s => { s with tokens := s.tokens.push token }

def emitAt (position : Nat) (token : Token) : Lex Unit := modify fun s =>
  { s with tokens := s.tokens.take position ++ #[token] ++ s.tokens.drop position }

def allowKey (keyAllowed : Bool) : Lex Unit := modify fun s => { s with keyAllowed }

/-! Candidates for keys. -/

def candidate? : Lex (Option Candidate) := return ((← get).candidates.head?).getD none

def setCandidate (candidate : Option Candidate) : Lex Unit := modify fun s =>
  { s with candidates := candidate :: s.candidates.drop 1 }

/-- Gives a candidate up, which must not be one that only a key can be. -/
def dropCandidate : Lex Unit := do
  match ← candidate? with
  | some candidate => require !candidate.required
  | none => pure ()
  setCandidate none

/-- Gives up the candidates that are on an earlier line or too far behind. -/
def dropStale : Lex Unit := do
  let s ← get
  let stale (c : Candidate) : Bool := c.line != s.line || s.index - c.index > 1024
  require !(s.candidates.any fun place => place.any fun c => stale c && c.required)
  set { s with candidates := s.candidates.map (Option.filter fun c => !stale c) }

def saveCandidate : Lex Unit := do
  let s ← get
  if s.keyAllowed then
    dropCandidate
    setCandidate (some
      { position := s.tokens.size
        required := s.flow == 0 && s.indent == s.column
        index := s.index
        line := s.line
        column := s.column })

/-! Indentation. -/

/-- Ends the block collections that are further right than a column. -/
def unwind (column : Int) : Lex Unit := do
  if (← get).flow == 0 then
    repeated ((← get).indents.length) do
      let s ← get
      if s.indent > column then
        set { s with
          indent := s.indents.headD (-1), indents := s.indents.drop 1
          tokens := s.tokens.push .blockEnd }
        return true
      else return false

/-- Begins a block collection at a column, unless one has begun there. -/
def addIndent (column : Nat) : Lex Bool := do
  let s ← get
  if s.indent < column then
    set { s with indents := s.indent :: s.indents, indent := column }
    return true
  else return false

/-! Gaps and directives. -/

def skipSpaces : Lex Unit := do discard (takeWhile (· == ' '))

def skipComment : Lex Unit := do
  if (← peek) == some '#' then discard (takeWhile fun c => !isBreak c)

/-- Goes to the next token. A key may begin on a new line of a block. -/
def skipGap : Lex Unit := do
  if (← get).index == 0 && (← peek) == some '\uFEFF' then forward
  loop do
    skipSpaces
    skipComment
    if (← lineBreak).isEmpty then return false
    if (← get).flow == 0 then allowKey true
    return true

/-- Goes to the end of a line on which only a comment may still stand. -/
def restOfLine : Lex Unit := do
  skipSpaces
  skipComment
  require (isLineEnd (← peek))
  discard lineBreak

def name : Lex (List Char) := do
  let name ← takeWhile isNameChar
  require !name.isEmpty
  return name

def number : Lex Nat := do
  let digits ← takeWhile Char.isDigit
  require !digits.isEmpty
  return digits.foldl (fun n c => n * 10 + (c.toNat - 48)) 0

def hexValue? (c : Char) : Option Nat :=
  if c.isDigit then some (c.toNat - 48)
  else if 'a' ≤ c && c ≤ 'f' then some (c.toNat - 87)
  else if 'A' ≤ c && c ≤ 'F' then some (c.toNat - 55)
  else none

def hexNumber (length : Nat) : Lex Nat := do
  let digits := (← get).rest.take length
  match digits.mapM hexValue? with
  | some values =>
    require (values.length == length)
    forwardBy length
    return values.foldl (fun n d => n * 16 + d) 0
  | none => malformed

def address : Lex Text := do
  let taken ← takeWhile fun c => isAddressChar c || c == '%'
  require !taken.isEmpty
  return text taken

/-- The handle of a tag: an exclamation mark, or a name between two of them. -/
def tagHandle : Lex Text := do
  require ((← peek) == some '!')
  forward
  if (← peek) == some ' ' then return text ['!']
  let name ← takeWhile isNameChar
  require ((← peek) == some '!')
  forward
  return text (['!'] ++ name ++ ['!'])

def directive : Lex Unit := do
  unwind (-1)
  dropCandidate
  allowKey false
  forward
  let name ← name
  require (isSpaceOrLineEnd (← peek))
  let token ← if name == "YAML".toList then do
      skipSpaces
      let major ← number
      require ((← peek) == some '.')
      forward
      discard number
      require (isSpaceOrLineEnd (← peek))
      pure (Token.versionDirective major)
    else if name == "TAG".toList then do
      skipSpaces
      let handle ← tagHandle
      require ((← peek) == some ' ')
      skipSpaces
      let start ← address
      require (isSpaceOrLineEnd (← peek))
      pure (Token.tagDirective handle start)
    else do
      discard (takeWhile fun c => !isBreak c)
      pure Token.otherDirective
  restOfLine
  emit token

def separator (token : Token) : Lex Unit := do
  unwind (-1)
  dropCandidate
  allowKey false
  forwardBy 3
  emit token

/-! Punctuation. -/

def flowStart (token : Token) : Lex Unit := do
  saveCandidate
  modify fun s => { s with flow := s.flow + 1, candidates := none :: s.candidates }
  allowKey true
  forward
  emit token

def flowEnd (token : Token) : Lex Unit := do
  require ((← get).flow != 0)
  dropCandidate
  modify fun s => { s with flow := s.flow - 1, candidates := s.candidates.drop 1 }
  allowKey false
  forward
  emit token

def flowEntry : Lex Unit := do
  allowKey true
  dropCandidate
  forward
  emit .flowEntry

/-- Begins a block collection here if none has begun at this column. -/
def openBlock (token : Token) : Lex Unit := do
  let s ← get
  if s.flow == 0 then
    require s.keyAllowed
    if ← addIndent s.column then emit token

def blockEntry : Lex Unit := do
  openBlock .blockSequenceStart
  allowKey true
  dropCandidate
  forward
  emit .blockEntry

def key : Lex Unit := do
  openBlock .blockMappingStart
  allowKey ((← get).flow == 0)
  dropCandidate
  forward
  emit .key

/-- A colon makes a key of the candidate before it, if there is one. -/
def value : Lex Unit := do
  match ← candidate? with
  | some candidate =>
    setCandidate none
    emitAt candidate.position .key
    if (← get).flow == 0 then
      if ← addIndent candidate.column then emitAt candidate.position .blockMappingStart
    allowKey false
  | none =>
    openBlock .blockMappingStart
    allowKey ((← get).flow == 0)
    dropCandidate
  forward
  emit .value

/-! Properties of nodes. -/

def reference (token : Text → Token) : Lex Unit := do
  saveCandidate
  allowKey false
  forward
  let name ← name
  let after ← peek
  require (isGap after || after.any "?:,]\x7d%@`".toList.contains)
  emit (token (text name))

def tag : Lex Unit := do
  saveCandidate
  allowKey false
  let second ← peekAt 1
  let token ←
    if second == some '<' then do
      forwardBy 2
      let suffix ← address
      require ((← peek) == some '>')
      forward
      pure (Token.tag none suffix)
    else if isGap second then do
      forward
      pure (Token.tag none (text ['!']))
    else do
      let word := ((← get).rest.drop 1).takeWhile fun c => c != ' ' && !isBreak c
      let handle ← if word.contains '!' then tagHandle else do
        forward
        pure (text ['!'])
      let suffix ← address
      pure (Token.tag (some handle) suffix)
  require (isSpaceOrLineEnd (← peek))
  emit token

/-! Scalars. -/

/-- How the line ends after a block scalar are kept. -/
inductive Chomping
  | clip
  | strip
  | keep
  deriving DecidableEq

def chomping? : Option Char → Option Chomping
  | some '+' => some .keep
  | some '-' => some .strip
  | _ => none

def increment? : Lex (Option Nat) := do
  match ← peek with
  | some c =>
    if c.isDigit then
      require (c != '0')
      forward
      return some (c.toNat - 48)
    else return none
  | none => return none

def indicators : Lex (Chomping × Option Nat) := do
  let result ← match chomping? (← peek) with
    | some chomping => do
      forward
      pure (chomping, ← increment?)
    | none => do
      match ← increment? with
      | none => pure (.clip, none)
      | some n => do
        match chomping? (← peek) with
        | some chomping => do
          forward
          pure (chomping, some n)
        | none => pure (.clip, some n)
  require (isSpaceOrLineEnd (← peek))
  return result

/-- Takes the line ends of empty lines, and of each line the blanks up to a column. -/
def emptyLines (indent : Nat) : Lex Text := do
  let rec blanks : Nat → Lex Unit
    | 0 => pure ()
    | n + 1 => do
      if (← get).column < indent && (← peek) == some ' ' then
        forward
        blanks n
  let rec lines : Nat → Lex Text
    | 0 => pure []
    | n + 1 => do
      blanks indent
      let ends ← lineBreak
      if ends.isEmpty then return [] else return ends ++ (← lines n)
  lines ((← get).rest.length + 1)

/-- Takes blanks and line ends, and answers the line ends and the furthest column reached. -/
def leadingLines : Lex (Text × Nat) := do
  let rec go : Nat → Text → Nat → Lex (Text × Nat)
    | 0, ends, furthest => pure (ends, furthest)
    | n + 1, ends, furthest => do
      if (← peek) == some ' ' then
        forward
        go n ends (max furthest (← get).column)
      else
        let found ← lineBreak
        if found.isEmpty then return (ends, furthest) else go n (ends ++ found) furthest
  go ((← get).rest.length + 1) [] 0

def isBlankChar (c : Option Char) : Bool := c == some ' ' || c == some '\t'

/-- The lines of a block scalar at a column: the text, the last line end and the empty lines after
it. Folding makes a blank of a line end between two lines that begin with no blank. -/
def blockLines (folded : Bool) (indent : Nat) (before : Text) : Lex (Text × Text × Text) := do
  let rec go : Nat → Text → Text → Text → Lex (Text × Text × Text)
    | 0, done, lineEnd, ends => pure (done, lineEnd, ends)
    | n + 1, done, _, ends => do
      let starts := !isBlankChar (← peek)
      let line ← takeWhile fun c => !isBreak c
      let done := done ++ ends ++ text line
      let lineEnd ← lineBreak
      let ends ← emptyLines indent
      let next ← peek
      if (← get).column == indent && next.isSome then
        let joint :=
          if folded && lineEnd == text ['\n'] && starts && !isBlankChar next then
            if ends.isEmpty then text [' '] else []
          else lineEnd
        go n (done ++ joint) [] ends
      else return (done, lineEnd, ends)
  if (← get).column == indent && (← peek).isSome then
    go ((← get).rest.length + 1) [] [] before
  else return ([], [], before)

def blockScalar (folded : Bool) : Lex Unit := do
  allowKey true
  dropCandidate
  forward
  let (chomping, increment) ← indicators
  restOfLine
  let least := max 1 ((← get).indent + 1).toNat
  let (indent, before) ← match increment with
    | some n => do
      let indent := least + n - 1
      pure (indent, ← emptyLines indent)
    | none => do
      let (ends, furthest) ← leadingLines
      pure (max least furthest, ends)
  let (content, lineEnd, after) ← blockLines folded indent before
  let content := if chomping == .strip then content else content ++ lineEnd
  let content := if chomping == .keep then content ++ after else content
  emit (.scalar content false)

def escaped? : Char → Option Char
  | '0' => some '\x00'
  | 'a' => some '\x07'
  | 'b' => some '\x08'
  | 't' | '\t' => some '\t'
  | 'n' => some '\n'
  | 'v' => some '\x0b'
  | 'f' => some '\x0c'
  | 'r' => some '\r'
  | 'e' => some '\x1b'
  | ' ' => some ' '
  | '"' => some '"'
  | '\\' => some '\\'
  | '/' => some '/'
  | 'N' => some '\x85'
  | '_' => some '\xa0'
  | 'L' => some '\u2028'
  | 'P' => some '\u2029'
  | _ => none

def escapeLength? : Char → Option Nat
  | 'x' => some 2
  | 'u' => some 4
  | 'U' => some 8
  | _ => none

def quotedBreaks : Lex Text := do
  let rec go : Nat → Lex Text
    | 0 => pure []
    | n + 1 => do
      require !(← atSeparator)
      discard (takeWhile fun c => c == ' ' || c == '\t')
      let found ← lineBreak
      if found.isEmpty then return [] else return found ++ (← go n)
  go ((← get).rest.length + 1)

/-- A line end, folded: it is a blank, or the line ends of the empty lines that follow it. -/
def foldBreak (lineEnd ends : Text) : Text :=
  if lineEnd != text ['\n'] then lineEnd ++ ends
  else if ends.isEmpty then text [' ']
  else ends

def escape : Lex Text := do
  match ← peek with
  | none => malformed
  | some c =>
    match escaped? c, escapeLength? c with
    | some e, _ =>
      forward
      return text [e]
    | none, some length =>
      forward
      match CodePoint.ofNat? (← hexNumber length) with
      | some point => return [point]
      | none => throw .notNumber
    | none, none =>
      require (isBreak c)
      discard lineBreak
      quotedBreaks

def quotedPiece (double : Bool) (c : Char) : Lex Text := do
  if c == ' ' || c == '\t' || isBreak c then
    let blanks ← takeWhile fun c => c == ' ' || c == '\t'
    let next ← peek
    require next.isSome
    if next.any isBreak then
      let lineEnd ← lineBreak
      return foldBreak lineEnd (← quotedBreaks)
    else return text blanks
  else if double && c == '\\' then
    forward
    escape
  else if !double && c == '\'' then
    forwardBy 2
    return text ['\'']
  else
    forward
    return text [c]

def quotedScalar (double : Bool) : Lex Unit := do
  saveCandidate
  allowKey false
  let quote := if double then '"' else '\''
  forward
  let rec go : Nat → Text → Lex Text
    | 0, _ => malformed
    | n + 1, done => do
      match ← peek with
      | none => malformed
      | some c =>
        if c == quote && (double || (← peekAt 1) != some '\'') then
          forward
          return done.reverse
        else
          let piece ← quotedPiece double c
          go n (piece.reverse ++ done)
  let content ← go ((← get).rest.length + 1) []
  emit (.scalar content false)

/-- The blanks and line ends after a word of a plain scalar; none if the scalar ends there. -/
def plainGap : Lex Text := do
  let blanks ← takeWhile (· == ' ')
  if (← peek).any isBreak then
    let lineEnd ← lineBreak
    allowKey true
    if ← atSeparator then return []
    let rec go : Nat → Text → Lex (Option Text)
      | 0, ends => pure (some ends)
      | n + 1, ends => do
        if (← peek) == some ' ' then
          forward
          go n ends
        else
          let found ← lineBreak
          if found.isEmpty then return some ends
          if ← atSeparator then return none
          go n (ends ++ found)
    match ← go ((← get).rest.length + 1) [] with
    | none => return []
    | some ends => return foldBreak lineEnd ends
  else return text blanks

def wordLength (inFlow : Bool) : List Char → Nat
  | [] => 0
  | c :: rest =>
    let ends :=
      isGap (some c) ||
      (c == ':' && (isGap rest.head? || (inFlow && rest.head?.any ",[]\x7b\x7d".toList.contains))) ||
      (inFlow && ",?[]\x7b\x7d".toList.contains c)
    if ends then 0 else wordLength inFlow rest + 1

def plainScalar : Lex Unit := do
  saveCandidate
  allowKey false
  let indent := (← get).indent + 1
  let rec go : Nat → Text → Text → Lex Text
    | 0, done, _ => pure done
    | n + 1, done, gap => do
      if (← peek) == some '#' then return done
      let s ← get
      let length := wordLength (s.flow != 0) s.rest
      if length == 0 then return done
      allowKey false
      let done := done ++ gap ++ text (s.rest.take length)
      forwardBy length
      let gap ← plainGap
      let s ← get
      if gap.isEmpty || s.rest.head? == some '#' || (s.flow == 0 && s.column < indent) then
        return done
      go n done gap
  let content ← go ((← get).rest.length + 1) [] []
  emit (.scalar content true)

def startsPlain (inFlow : Bool) (c : Char) (next : Option Char) : Bool :=
  !(isGap (some c) || "-?:,[]\x7b\x7d#&*!|>'\"%@`".toList.contains c) ||
    (!isGap next && (c == '-' || (!inFlow && (c == '?' || c == ':'))))

/-- Reads one token. Answers whether there may be more. -/
def token : Lex Bool := do
  skipGap
  dropStale
  let s ← get
  unwind s.column
  match s.rest.head? with
  | none =>
    unwind (-1)
    dropCandidate
    emit .streamEnd
    return false
  | some c =>
    let next := s.rest[1]?
    let inFlow := s.flow != 0
    if c == '%' && s.column == 0 then directive
    else if s.column == 0 && (← atSeparator) then
      separator (if c == '-' then .documentStart else .documentEnd)
    else if c == '[' then flowStart .flowSequenceStart
    else if c == '{' then flowStart .flowMappingStart
    else if c == ']' then flowEnd .flowSequenceEnd
    else if c == '}' then flowEnd .flowMappingEnd
    else if c == ',' then flowEntry
    else if c == '-' && isGap next then blockEntry
    else if c == '?' && (inFlow || isGap next) then key
    else if c == ':' && (inFlow || isGap next) then value
    else if c == '*' then reference .alias
    else if c == '&' then reference .anchor
    else if c == '!' then tag
    else if c == '|' && !inFlow then blockScalar false
    else if c == '>' && !inFlow then blockScalar true
    else if c == '\'' then quotedScalar false
    else if c == '"' then quotedScalar true
    else if startsPlain inFlow c next then plainScalar
    else malformed
    return true

end Lex

def Token.ofText (cs : List Char) : Except Fault (List Token) :=
  if cs.all isAllowed then
    match (Lex.loop Lex.token).run ⟨cs, 0, 0, 0, 0, -1, [], true, [none], #[]⟩ with
    | .ok (_, s) => .ok s.tokens.toList
    | .error fault => .error fault
  else .error .malformed

end Intake.Yaml
