/-! Text as the import handles it: a list of code points in which a surrogate may stand alone.
Cells, headers, file names and stored progress all share this type, because a stored progress
record or a cell may spell a lone surrogate by an escape and must keep it. -/
namespace Intake

/-- A Unicode code point. A surrogate stands for `0xD800 + half`. -/
inductive CodePoint
  | scalar (c : Char)
  | surrogate (half : Fin 0x800)
  deriving DecidableEq, Inhabited, Repr

namespace CodePoint

def value : CodePoint → Nat
  | scalar c => c.toNat
  | surrogate half => 0xD800 + half.val

def char? : CodePoint → Option Char
  | scalar c => some c
  | surrogate _ => none

def ofNat? (n : Nat) : Option CodePoint :=
  if h : n.isValidChar then some (scalar (Char.ofNatAux n h))
  else if h : 0xD800 ≤ n ∧ n < 0xE000 then some (surrogate ⟨n - 0xD800, by omega⟩)
  else none

theorem ofNat?_value (c : CodePoint) : ofNat? c.value = some c := by
  cases c with
  | scalar c =>
    have valid : c.toNat.isValidChar := c.valid
    exact (dif_pos valid).trans rfl
  | surrogate half =>
    have bound := half.isLt
    have invalid : ¬ (0xD800 + half.val).isValidChar := by
      unfold Nat.isValidChar
      omega
    simp [ofNat?, value, invalid]
    omega

def isHigh (c : CodePoint) : Bool := 0xD800 ≤ c.value && c.value < 0xDC00

def isLow (c : CodePoint) : Bool := 0xDC00 ≤ c.value && c.value < 0xE000

/-- The code point that a surrogate pair stands for, given both numbers. -/
def ofPair (high low : Nat) : CodePoint :=
  (ofNat? (0x10000 + (high - 0xD800) * 0x400 + (low - 0xDC00))).getD default

end CodePoint

abbrev Text := List CodePoint

namespace Text

def ofString (s : String) : Text := s.toList.map CodePoint.scalar

instance : Coe String Text := ⟨ofString⟩

def toString? (t : Text) : Option String :=
  (t.mapM CodePoint.char?).map String.ofList

def ofNat (n : Nat) : Text := (Nat.toDigits 10 n).map CodePoint.scalar

/-- The decimal digits of an integer, a minus sign in front of a negative one. -/
def ofInt : Int → Text
  | .ofNat n => ofNat n
  | .negSucc n => CodePoint.scalar '-' :: ofNat (n + 1)

/-- Order by code point, as in a sorted list of keys. -/
def le : Text → Text → Bool
  | [], _ => true
  | _ :: _, [] => false
  | a :: s, b :: t => a.value < b.value || (a.value == b.value && le s t)

def join (separator : Text) : List Text → Text
  | [] => []
  | [t] => t
  | t :: rest => t ++ separator ++ join separator rest

/-- The parts of a text between the places where the separator stands. -/
def split (separator : CodePoint) : Text → List Text
  | [] => [[]]
  | c :: rest =>
    match split separator rest with
    | [] => [[c]]
    | part :: parts => if c = separator then [] :: part :: parts else (c :: part) :: parts

/-- What stands before and after the first separator, if it occurs. -/
def cut? (separator : CodePoint) : Text → Option (Text × Text)
  | [] => none
  | c :: rest =>
    if c = separator then some ([], rest)
    else (cut? separator rest).map fun parts => (c :: parts.1, parts.2)

/-- What stands before and after the last separator, if it occurs. -/
def cutLast? (separator : CodePoint) (t : Text) : Option (Text × Text) :=
  (cut? separator t.reverse).map fun parts => (parts.2.reverse, parts.1.reverse)

def replace (old new : CodePoint) (t : Text) : Text := t.map fun c => if c = old then new else c

/-- The text without what it starts with, if it does start so. -/
def dropStart? : (start t : Text) → Option Text
  | [], t => some t
  | _ :: _, [] => none
  | a :: start, c :: t => if a = c then dropStart? start t else none

/-- The digits of a number in base sixteen, at least `width` of them, in lower case. -/
def hex (width n : Nat) : Text :=
  let digits := Nat.toDigits 16 n
  (List.replicate (width - digits.length) '0' ++ digits).map CodePoint.scalar

end Text
end Intake
