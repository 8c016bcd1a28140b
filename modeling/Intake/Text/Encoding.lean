import Intake.Text.Basic

/-! Encodings of text as bytes. UTF-8, UTF-16, UTF-32 and Latin-1 are read; UTF-8 is written.
A lone surrogate is refused by the strict forms and kept by the lenient ones, which are those of
a message body whose encoding has to be guessed. -/
namespace Intake

abbrev Bytes := List UInt8

inductive ByteOrder
  | little
  | big
  deriving DecidableEq

inductive EncodingError
  /-- bytes that no text is encoded as -/
  | malformed
  /-- text in sixteen-bit units that does not begin with a byte-order mark -/
  | unmarked
  deriving DecidableEq, Repr

namespace Text

def byteOrderMark : CodePoint := .scalar '\uFEFF'

def encodePoint (c : CodePoint) : Option Bytes :=
  match c with
  | .surrogate _ => none
  | .scalar c =>
    let n := c.toNat
    let tail (shift : Nat) : UInt8 := UInt8.ofNat (0x80 + (n >>> shift) % 64)
    if n < 0x80 then some [UInt8.ofNat n]
    else if n < 0x800 then some [UInt8.ofNat (0xC0 + n / 64), tail 0]
    else if n < 0x10000 then some [UInt8.ofNat (0xE0 + n / 4096), tail 6, tail 0]
    else some [UInt8.ofNat (0xF0 + n / 262144), tail 12, tail 6, tail 0]

/-- The UTF-8 bytes of a text, none if a surrogate stands in it. -/
def encodeUtf8 : Text → Option Bytes
  | [] => some []
  | c :: rest => do return (← encodePoint c) ++ (← encodeUtf8 rest)

def continuation? (b : UInt8) : Option Nat :=
  if 0x80 ≤ b.toNat ∧ b.toNat < 0xC0 then some (b.toNat - 0x80) else none

/-- A code point of at least the given number; a surrogate only where it is allowed. -/
def point? (surrogates : Bool) (least n : Nat) : Option CodePoint :=
  if n < least then none
  else match CodePoint.ofNat? n with
    | some (.surrogate half) => if surrogates then some (.surrogate half) else none
    | other => other

def decodeUtf8 (surrogates : Bool) : Bytes → Option Text
  | [] => some []
  | a :: rest =>
    let n := a.toNat
    if n < 0x80 then do return (← point? surrogates 0 n) :: (← decodeUtf8 surrogates rest)
    else if n < 0xE0 then
      match rest with
      | b :: rest => do
        let c ← point? surrogates 0x80 ((n - 0xC0) * 64 + (← continuation? b))
        guard (0xC0 ≤ n)
        return c :: (← decodeUtf8 surrogates rest)
      | [] => none
    else if n < 0xF0 then
      match rest with
      | b :: c :: rest => do
        let c ← point? surrogates 0x800
          ((n - 0xE0) * 4096 + (← continuation? b) * 64 + (← continuation? c))
        return c :: (← decodeUtf8 surrogates rest)
      | _ => none
    else
      match rest with
      | b :: c :: d :: rest => do
        guard (n < 0xF8)
        let c ← point? surrogates 0x10000 ((n - 0xF0) * 262144 + (← continuation? b) * 4096
          + (← continuation? c) * 64 + (← continuation? d))
        return c :: (← decodeUtf8 surrogates rest)
      | _ => none

def units16 (order : ByteOrder) : Bytes → Option (List Nat)
  | [] => some []
  | [_] => none
  | a :: b :: rest => do
    let unit := match order with
      | .little => b.toNat * 256 + a.toNat
      | .big => a.toNat * 256 + b.toNat
    return unit :: (← units16 order rest)

/-- The text of sixteen-bit units: a high surrogate and a low one after it make one code point. -/
def ofUnits16 (surrogates : Bool) : List Nat → Option Text
  | [] => some []
  | [unit] => do return [← point? surrogates 0 unit]
  | high :: low :: rest =>
    if 0xD800 ≤ high ∧ high < 0xDC00 ∧ 0xDC00 ≤ low ∧ low < 0xE000 then do
      return CodePoint.ofPair high low :: (← ofUnits16 surrogates rest)
    else do return (← point? surrogates 0 high) :: (← ofUnits16 surrogates (low :: rest))

def decodeUtf16 (surrogates : Bool) (order : ByteOrder) (bytes : Bytes) : Option Text := do
  ofUnits16 surrogates (← units16 order bytes)

def decodeUtf32 (surrogates : Bool) (order : ByteOrder) : Bytes → Option Text
  | [] => some []
  | a :: b :: c :: d :: rest => do
    let n := match order with
      | .little => ((d.toNat * 256 + c.toNat) * 256 + b.toNat) * 256 + a.toNat
      | .big => ((a.toNat * 256 + b.toNat) * 256 + c.toNat) * 256 + d.toNat
    return (← point? surrogates 0 n) :: (← decodeUtf32 surrogates order rest)
  | _ => none

def decodeLatin1 (bytes : Bytes) : Text := bytes.map fun b => .scalar (Char.ofNat b.toNat)

def decodeMarkedUtf16 : Bytes → Except EncodingError Text
  | [] => .ok []
  | bytes@(a :: b :: rest) =>
    let decoded := if a.toNat = 0xFF ∧ b.toNat = 0xFE then some (decodeUtf16 false .little rest)
      else if a.toNat = 0xFE ∧ b.toNat = 0xFF then some (decodeUtf16 false .big rest)
      else none
    match decoded with
    | some (some text) => .ok text
    | some none => .error .malformed
    | none => if bytes.length = 1 then .error .malformed else .error .unmarked
  | [_] => .error .malformed

/-- Reads a message body whose encoding is told by its byte-order mark or, without one, by where
the zero bytes of its first two code points stand. -/
def decodeGuessed (bytes : Bytes) : Option Text :=
  match bytes.map UInt8.toNat with
  | 0 :: 0 :: 0xFE :: 0xFF :: _ => decodeUtf32 true .big (bytes.drop 4)
  | 0xFF :: 0xFE :: 0 :: 0 :: _ => decodeUtf32 true .little (bytes.drop 4)
  | 0xFE :: 0xFF :: _ => decodeUtf16 true .big (bytes.drop 2)
  | 0xFF :: 0xFE :: _ => decodeUtf16 true .little (bytes.drop 2)
  | 0xEF :: 0xBB :: 0xBF :: _ => decodeUtf8 true (bytes.drop 3)
  | 0 :: 0 :: _ :: _ :: _ => decodeUtf32 true .big bytes
  | 0 :: _ :: _ :: _ :: _ => decodeUtf16 true .big bytes
  | _ :: 0 :: 0 :: 0 :: _ => decodeUtf32 true .little bytes
  | _ :: 0 :: _ :: _ :: _ => decodeUtf16 true .little bytes
  | [0, _] => decodeUtf16 true .big bytes
  | [_, 0] => decodeUtf16 true .little bytes
  | _ => decodeUtf8 true bytes

/-- The text with every line end written as a line feed. -/
def unifyLineEnds : Text → Text
  | [] => []
  | .scalar '\r' :: .scalar '\n' :: rest => .scalar '\n' :: unifyLineEnds rest
  | .scalar '\r' :: rest => .scalar '\n' :: unifyLineEnds rest
  | c :: rest => c :: unifyLineEnds rest

end Text
end Intake
