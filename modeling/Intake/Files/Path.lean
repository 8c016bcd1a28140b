import Intake.Text.Case

/-! Paths of files. Repeated slashes and parts that are a single dot do not count. -/
namespace Intake

/-- A path: what it starts from and the names on the way. -/
structure Path where
  /-- the slashes in front: none, one, or exactly two -/
  root : Text
  parts : List Text
  deriving DecidableEq, Repr

namespace Path

def separator : CodePoint := .scalar '/'

def ofText (t : Text) : Path :=
  let slashes := (t.takeWhile (· = separator)).length
  let root : Text := if slashes = 0 then [] else if slashes = 2 then "//" else "/"
  ⟨root, (Text.split separator t).filter fun part => !part.isEmpty && part ≠ Text.ofString "."⟩

def text (p : Path) : Text :=
  let joined := p.root ++ Text.join "/" p.parts
  if joined.isEmpty then "." else joined

def isAbsolute (p : Path) : Bool := !p.root.isEmpty

/-- The last name; empty for a root. -/
def name (p : Path) : Text := p.parts.getLast?.getD []

def parent (p : Path) : Path := ⟨p.root, p.parts.dropLast⟩

/-- The path under another one; an absolute path stands for itself. -/
def under (base p : Path) : Path := if p.isAbsolute then p else ⟨base.root, base.parts ++ p.parts⟩

def straighten (before : List Text) : List Text → List Text
  | [] => before.reverse
  | name :: rest =>
    straighten (if name = Text.ofString ".." then before.drop 1 else name :: before) rest

/-- The path from the root, without names that lead up, as it is seen from a directory. -/
def resolve (directory p : Path) : Path :=
  let whole := under directory p
  ⟨whole.root, straighten [] whole.parts⟩

/-- The end of the name from its last dot, unless the name begins or ends there. -/
def suffix (p : Path) : Text :=
  match Text.cutLast? (.scalar '.') p.name with
  | some (_ :: _, c :: rest) => .scalar '.' :: c :: rest
  | _ => []

def expandHome (p home : Path) : Path :=
  match p.root, p.parts with
  | [], [.scalar '~'] :: rest => ⟨home.root, home.parts ++ rest⟩
  | _, _ => p

end Path
end Intake
