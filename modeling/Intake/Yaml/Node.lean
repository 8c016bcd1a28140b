import Intake.Yaml.Token

/-! The nodes that the tokens of a YAML text stand for. Every node has a tag, which an untagged plain
scalar gets by its form; an alias is the node of its anchor. -/
namespace Intake.Yaml

inductive Tag
  | null
  | boolean
  | integer
  | real
  | text
  | sequence
  | mapping
  | merge
  | value
  /-- a tag that stands for no kind of value -/
  | foreign
  deriving DecidableEq, Repr

inductive Node
  | scalar (tag : Tag) (text : Text)
  | sequence (tag : Tag) (items : List Node)
  | mapping (tag : Tag) (entries : List (Node × Node))

instance : Inhabited Node := ⟨.scalar .null []⟩

/-! The form of plain scalars. -/

namespace Form

def isBinary (c : Char) : Bool := c == '0' || c == '1' || c == '_'

def isOctal (c : Char) : Bool := ('0' ≤ c && c ≤ '7') || c == '_'

def isDecimal (c : Char) : Bool := c.isDigit || c == '_'

def isHexadecimal (c : Char) : Bool :=
  c.isDigit || ('a' ≤ c && c ≤ 'f') || ('A' ≤ c && c ≤ 'F') || c == '_'

def unsigned : List Char → List Char
  | '+' :: rest => rest
  | '-' :: rest => rest
  | cs => cs

/-- Whether a text is a group of one or two digits below sixty. -/
def isSixtieth : List Char → Bool
  | [a] => a.isDigit
  | [a, b] => '0' ≤ a && a ≤ '5' && b.isDigit
  | _ => false

def parts (cs : List Char) : List (List Char) := cs.splitOn ':'

def isInteger (cs : List Char) : Bool :=
  match unsigned cs with
  | ['0'] => true
  | '0' :: 'b' :: c :: rest => (c :: rest).all isBinary
  | '0' :: 'x' :: c :: rest => (c :: rest).all isHexadecimal
  | '0' :: c :: rest => (c :: rest).all isOctal
  | c :: rest =>
    '1' ≤ c && c ≤ '9' &&
      match parts rest with
      | first :: others => first.all isDecimal && others.all isSixtieth
      | [] => false
  | [] => false

def isExponent : List Char → Bool
  | [] => true
  | e :: sign :: c :: rest =>
    (e == 'e' || e == 'E') && (sign == '+' || sign == '-') && (c :: rest).all Char.isDigit
  | _ => false

def isFraction (cs : List Char) : Bool := isExponent (cs.dropWhile isDecimal)

def isRealBase (cs : List Char) : Bool :=
  match unsigned cs with
  | c :: rest =>
    c.isDigit &&
      let whole := rest.takeWhile isDecimal
      match rest.drop whole.length with
      | '.' :: fraction => isFraction fraction
      | ':' :: more =>
        let sixtieths := more.takeWhile (· != '.')
        match more.drop sixtieths.length with
        | '.' :: fraction => (parts sixtieths).all isSixtieth && fraction.all isDecimal
        | _ => false
      | _ => false
  | [] => false

def isReal (cs : List Char) : Bool :=
  isRealBase cs ||
    (match cs with
    | '.' :: c :: rest => c.isDigit && isFraction rest
    | _ => false) ||
    [".inf", ".Inf", ".INF"].contains (String.ofList (unsigned cs)) ||
    [".nan", ".NaN", ".NAN"].contains (String.ofList cs)

def booleans : List String :=
  ["yes", "Yes", "YES", "no", "No", "NO", "true", "True", "TRUE", "false", "False", "FALSE",
    "on", "On", "ON", "off", "Off", "OFF"]

def nulls : List String := ["~", "null", "Null", "NULL", ""]

def tag (t : Text) : Tag :=
  match t.toString? with
  | none => .text
  | some s =>
    if booleans.contains s then .boolean
    else if isReal s.toList then .real
    else if isInteger s.toList then .integer
    else if s == "<<" then .merge
    else if nulls.contains s then .null
    else if s == "=" then .value
    else .text

end Form

/-! Reading nodes. -/

def depthLimit : Nat := 400

def usual : Text := "tag:yaml.org,2002:"

abbrev Handles := List (Text × Text)

def Handles.default : Handles := [("!", "!"), ("!!", usual)]

def Tag.usual : List (Text × Tag) :=
  [("null", .null), ("bool", .boolean), ("int", .integer), ("float", .real), ("str", .text),
    ("seq", .sequence), ("map", .mapping)]

def Tag.ofAddress (address : Text) : Tag :=
  match Text.dropStart? Yaml.usual address with
  | some name => (Tag.usual.lookup name).getD .foreign
  | none => .foreign

structure Properties where
  anchor : Option Text
  /-- the tag, none within for the one that leaves the kind of node open -/
  tag : Option (Option Tag)

def Properties.none : Properties := ⟨.none, .none⟩

/-- The state of reading: the tokens left, the handles, and the nodes of the anchors so far. -/
structure Reading where
  tokens : List Token
  handles : Handles
  anchors : List (Text × Option Node)

abbrev Read := StateT Reading (Except Fault)

namespace Read

def malformed {α : Type} : Read α := throw .malformed

def peek : Read Token := return ((← get).tokens.head?).getD .streamEnd

def advance : Read Unit := modify fun s => { s with tokens := s.tokens.drop 1 }

def take (token : Token) : Read Bool := do
  if (← peek) == token then
    advance
    return true
  else return false

def expect (token : Token) : Read Unit := do
  if !(← take token) then malformed

def at' (tokens : List Token) : Read Bool := return tokens.contains (← peek)

def tagOf (handle : Option Text) (suffix : Text) : Read (Option Tag) := do
  match handle with
  | none =>
    if suffix == Text.ofString "!" then return none else return some (.ofAddress suffix)
  | some handle =>
    match (← get).handles.lookup handle with
    | some start => return some (.ofAddress (start ++ suffix))
    | none => malformed

def properties : Read Properties := do
  match ← peek with
  | .anchor name =>
    advance
    match ← peek with
    | .tag handle suffix =>
      advance
      return ⟨some name, some (← tagOf handle suffix)⟩
    | _ => return ⟨some name, none⟩
  | .tag handle suffix =>
    advance
    let tag ← tagOf handle suffix
    match ← peek with
    | .anchor name =>
      advance
      return ⟨some name, some tag⟩
    | _ => return ⟨none, some tag⟩
  | _ => return .none

/-- Announces the node of an anchor, which must be a new one. -/
def declare (anchor : Option Text) : Read Unit := do
  match anchor with
  | none => pure ()
  | some name =>
    if ((← get).anchors.lookup name).isSome then malformed
    else modify fun s => { s with anchors := (name, none) :: s.anchors }

def define (anchor : Option Text) (node : Node) : Read Unit := do
  match anchor with
  | none => pure ()
  | some name => modify fun s => { s with anchors := (name, some node) :: s.anchors }

def scalarTag (tag : Option (Option Tag)) (plain : Bool) (t : Text) : Tag :=
  match tag with
  | some (some tag) => tag
  | some none => Form.tag t
  | none => if plain then Form.tag t else .text

def collectionTag (tag : Option (Option Tag)) (usual : Tag) : Tag :=
  match tag with
  | some (some tag) => tag
  | _ => usual

def absent : Node := .scalar .null []

/-- Where a node stands: whether it may be a block collection, and whether it may be a sequence
that is not indented further than its key. -/
inductive Place
  | flow
  | block
  | value
  deriving DecidableEq

mutual

/-- A node. Every call inside has less fuel, of which there is more than tokens can take. -/
def node : Nat → Nat → Place → Read Node
  | 0, _, _ => malformed
  | fuel + 1, depth, place => do
    if depth > depthLimit then throw .nested
    match ← peek with
    | .alias name =>
      advance
      match (← get).anchors.lookup name with
      | some (some node) => return node
      | _ => malformed
    | _ =>
      let properties ← properties
      declare properties.anchor
      let node ← content fuel depth place properties
      define properties.anchor node
      return node

/-- A node after its properties. -/
def content : Nat → Nat → Place → Properties → Read Node
  | 0, _, _, _ => malformed
  | fuel + 1, depth, place, properties => do
    let sequence (items : Read (List Node)) : Read Node :=
      return .sequence (collectionTag properties.tag .sequence) (← items)
    let mapping (entries : Read (List (Node × Node))) : Read Node :=
      return .mapping (collectionTag properties.tag .mapping) (← entries)
    let next ← peek
    match next with
    | .blockEntry =>
      if place == .value then sequence (indentless fuel depth)
      else empty properties
    | .scalar t plain =>
      advance
      return .scalar (scalarTag properties.tag plain t) t
    | .flowSequenceStart =>
      advance
      sequence (flowItems fuel depth true)
    | .flowMappingStart =>
      advance
      mapping (flowEntries fuel depth true)
    | .blockSequenceStart =>
      if place == .flow then empty properties
      else
        advance
        sequence (blockItems fuel depth)
    | .blockMappingStart =>
      if place == .flow then empty properties
      else
        advance
        mapping (blockEntries fuel depth)
    | _ => empty properties

def empty (properties : Properties) : Read Node :=
  if properties.anchor.isNone && properties.tag.isNone then malformed
  else
    return .scalar
      (match properties.tag with
      | some (some tag) => tag
      | _ => .null) []

def nodeUnless : Nat → Nat → Place → List Token → Read Node
  | 0, _, _, _ => malformed
  | fuel + 1, depth, place, ends => do
    if ← at' ends then return absent else node fuel (depth + 1) place

def blockItems : Nat → Nat → Read (List Node)
  | 0, _ => malformed
  | fuel + 1, depth => do
    if ← take .blockEntry then
      let item ← nodeUnless fuel depth .block [.blockEntry, .blockEnd]
      return item :: (← blockItems fuel depth)
    else
      expect .blockEnd
      return []

def indentless : Nat → Nat → Read (List Node)
  | 0, _ => malformed
  | fuel + 1, depth => do
    if ← take .blockEntry then
      let item ← nodeUnless fuel depth .block [.blockEntry, .key, .value, .blockEnd]
      return item :: (← indentless fuel depth)
    else return []

def blockEntries : Nat → Nat → Read (List (Node × Node))
  | 0, _ => malformed
  | fuel + 1, depth => do
    let ends := [Token.key, .value, .blockEnd]
    if ← take .key then
      let key ← nodeUnless fuel depth .value ends
      let value ← if ← take .value then nodeUnless fuel depth .value ends else pure absent
      return (key, value) :: (← blockEntries fuel depth)
    else
      expect .blockEnd
      return []

def flowValue : Nat → Nat → Token → Read Node
  | 0, _, _ => malformed
  | fuel + 1, depth, ending => do
    if ← take .value then nodeUnless fuel depth .flow [.flowEntry, ending] else return absent

/-- The items of a flow sequence, one of which may be an entry that stands for a mapping. -/
def flowItems : Nat → Nat → Bool → Read (List Node)
  | 0, _, _ => malformed
  | fuel + 1, depth, isFirst => do
    if ← take .flowSequenceEnd then return []
    if !isFirst then
      expect .flowEntry
      if ← take .flowSequenceEnd then return []
    if ← take .key then
      let key ← nodeUnless fuel (depth + 1) .flow [.value, .flowEntry, .flowSequenceEnd]
      let value ← flowValue fuel (depth + 1) .flowSequenceEnd
      return .mapping .mapping [(key, value)] :: (← flowItems fuel depth false)
    else
      let item ← node fuel (depth + 1) .flow
      return item :: (← flowItems fuel depth false)

def flowEntries : Nat → Nat → Bool → Read (List (Node × Node))
  | 0, _, _ => malformed
  | fuel + 1, depth, isFirst => do
    if ← take .flowMappingEnd then return []
    if !isFirst then
      expect .flowEntry
      if ← take .flowMappingEnd then return []
    let entry ←
      if ← take .key then do
        let key ← nodeUnless fuel depth .flow [.value, .flowEntry, .flowMappingEnd]
        let value ← flowValue fuel depth .flowMappingEnd
        pure (key, value)
      else do
        let key ← node fuel (depth + 1) .flow
        pure (key, absent)
    return entry :: (← flowEntries fuel depth false)

end

/-! Documents. -/

def directives : List Token → Bool → Handles → Except Fault (List Token × Handles)
  | .versionDirective major :: rest, versioned, handles =>
    if versioned || major != 1 then .error .malformed else directives rest true handles
  | .tagDirective handle start :: rest, versioned, handles =>
    if (handles.lookup handle).isSome then .error .malformed
    else directives rest versioned (handles ++ [(handle, start)])
  | .otherDirective :: rest, versioned, handles => directives rest versioned handles
  | tokens, _, handles => .ok (tokens, handles)

def skipEnds : List Token → List Token
  | .documentEnd :: rest => skipEnds rest
  | tokens => tokens

def isDirective : Token → Bool
  | .versionDirective _ | .tagDirective .. | .otherDirective => true
  | _ => false

/-- Goes on to the next document. Answers whether there is one. -/
def nextDocument (implicit : Bool) : Read Bool := do
  let read := (← get).tokens
  let tokens := if implicit then read else skipEnds read
  modify fun s => { s with tokens }
  let next ← peek
  if next == .streamEnd then return false
  else if implicit && next != .documentStart && !isDirective next then
    modify fun s => { s with handles := .default }
    return true
  else
    let (tokens, own) ← directives (skipEnds tokens) false []
    modify fun s => { s with tokens, handles := own ++ Handles.default }
    expect .documentStart
    return true

def document : Read (Option Node) := do
  let explicit := (← peek) == .documentStart || isDirective (← peek)
  if !(← nextDocument true) then return none
  let next ← peek
  let root ←
    if explicit && (next == .documentStart || next == .documentEnd || next == .streamEnd ||
        isDirective next) then pure absent
    else node (4 * (← get).tokens.length + 8) 0 .block
  if (← peek) == .documentEnd then advance
  if ← nextDocument false then malformed
  return some root

end Read

/-- The node of a text whose lines end in line feeds, if it holds one. -/
def Node.ofText (t : Text) : Except Fault (Option Node) := do
  match t.mapM CodePoint.char? with
  | none => throw .malformed
  | some cs =>
    let tokens ← Token.ofText cs
    match Read.document.run ⟨tokens, .default, []⟩ with
    | .ok (node, _) => return node
    | .error fault => throw fault

end Intake.Yaml
