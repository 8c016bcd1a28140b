import Intake.Proofs.Files.Tree
import Intake.Proofs.Json.Plain

/-! Files right inside a directory. A plain name without a slash leads there from the directory, and
such files neither hide the directory nor each other. -/
namespace Intake

structure Path.IsName (name : Text) : Prop where
  plain : name.isPlain = true
  whole : separator ∉ name
  short : name.length ≤ 255
  shown : name ≠ []
  still : name ≠ Text.ofString "."
  down : name ≠ FileTree.up

namespace Text

theorem split_whole {separator : CodePoint} {t : Text} (whole : separator ∉ t) :
    split separator t = [t] := by
  induction t with
  | nil => rfl
  | cons c t ih =>
    obtain ⟨other, rest⟩ := not_or.mp (List.mem_cons.not.mp whole)
    simp [split, ih rest, Ne.symm other]

end Text

theorem Path.ofText_name {name : Text} (named : IsName name) : ofText name = ⟨[], [name]⟩ := by
  have start : name.takeWhile (· = separator) = [] := by
    cases name with
    | nil => rfl
    | cons c rest =>
      obtain ⟨other, _⟩ := not_or.mp (List.mem_cons.not.mp named.whole)
      simp [Ne.symm other]
  simp [ofText, start, Text.split_whole named.whole, named.shown, named.still]

namespace FileTree
variable {tree : FileTree} {location : Location} {name : Text} {p : Path}

private def addSize (size : Nat) (c : CodePoint) : Option Nat :=
  match Text.encodePoint c with
  | some bytes => some (size + bytes.length)
  | none => if 0xDC80 ≤ c.value ∧ c.value ≤ 0xDCFF then some (size + 1) else none

private theorem addSize_plain {c : CodePoint} (plain : c.isPlain = true) (size : Nat) :
    addSize size c = some (size + 1) := by
  simp only [CodePoint.isPlain, Bool.and_eq_true, decide_eq_true_eq] at plain
  cases c with
  | surrogate half =>
    simp only [CodePoint.value] at plain
    omega
  | scalar c =>
    have below : c.toNat < 0x80 := Nat.lt_trans plain.2 (by decide)
    simp [addSize, Text.encodePoint, below]

theorem nameSize?_plain (plain : name.isPlain = true) : nameSize? name = some name.length := by
  have sum (t : Text) (size : Nat) (plain : t.isPlain = true) :
      t.foldlM addSize size = some (size + t.length) := by
    induction t generalizing size with
    | nil => rfl
    | cons c t ih =>
      rw [Text.isPlain_cons, Bool.and_eq_true] at plain
      rw [List.foldlM_cons, addSize_plain plain.1]
      refine (ih (size + 1) plain.2).trans ?_
      rw [List.length_cons, Nat.add_assoc, Nat.add_comm 1]
  have whole : nameSize? name = name.foldlM addSize 0 := rfl
  rw [whole, sum name 0 plain, Nat.zero_add]

private theorem checkNames_inside (named : Path.IsName name) (checked : checkNames p = .ok ()) :
    checkNames ⟨p.root, p.parts ++ [name]⟩ = .ok () := by
  have size := nameSize?_plain named.plain
  have whole : CodePoint.scalar '\x00' ∉ name := fun here => by
    have plain := List.all_eq_true.mp named.plain _ here
    revert plain
    decide
  unfold checkNames at checked ⊢
  split_ifs at checked with encoded nulls
  simp only [List.any_append, List.any_cons, List.any_nil, size, Option.isNone_some, Bool.or_false,
    encoded, nulls]
  simpa using whole

theorem walk_append (tree : FileTree) (start : Location) (before after : List Text) :
    tree.walk start (before ++ after) = (tree.walk start before).bind (tree.walk · after) := by
  induction before generalizing start with
  | nil => rfl
  | cons name rest ih =>
    rw [List.cons_append, walk, walk]
    split
    · rfl
    · rfl
    · split
      · rfl
      · exact ih _

private theorem locate_start (located : tree.locate p = .ok location) :
    checkNames p = .ok () ∧
      tree.walk (if p.isAbsolute then [[Path.separator]] else []) p.parts = .ok location := by
  simp only [locate, bind, Except.bind] at located
  split at located
  · cases located
  · rename_i checked
    exact ⟨checked, located⟩

private theorem under_ofText (p : Path) (named : Path.IsName name) :
    p.under (Path.ofText name) = ⟨p.root, p.parts ++ [name]⟩ := by
  rw [Path.ofText_name named]
  rfl

/-- A name leads from a directory to a place right inside it. -/
theorem locate_inside (located : tree.locate p = .ok location)
    (directory : tree.node? location = some .directory) (named : Path.IsName name) :
    tree.locate (p.under (Path.ofText name)) = .ok (location ++ [name]) := by
  obtain ⟨checked, walked⟩ := locate_start located
  have size := nameSize?_plain named.plain
  have short := Nat.not_lt.mpr named.short
  rw [under_ofText p named, locate, checkNames_inside named checked]
  have root : (⟨p.root, p.parts ++ [name]⟩ : Path).isAbsolute = p.isAbsolute := rfl
  simp only [bind, Except.bind, root, walk_append, walked, walk, directory, size, Option.getD_some,
    if_neg short, under, if_neg named.down]

/-- Making a directory that is there changes nothing. -/
theorem makeDirectory_made (located : tree.locate p = .ok location)
    (directory : tree.node? location = some .directory) : tree.makeDirectory p = .ok tree := by
  obtain ⟨checked, walked⟩ := locate_start located
  -- The names are walked as they are made; each step finds its directory.
  have along {start : Location} {names : List Text} (walked : tree.walk start names = .ok location) :
      tree.node? start = some .directory ∧ tree.makeAlong start names = .ok tree := by
    induction names generalizing start with
    | nil =>
      cases walked
      exact ⟨directory, rfl⟩
    | cons name rest ih =>
      rw [walk] at walked
      split at walked
      · cases walked
      · cases walked
      · rename_i here
        split at walked
        · cases walked
        · rename_i short
          obtain ⟨next, made⟩ := ih walked
          exact ⟨here, by simp only [makeAlong, if_neg short, next, made]⟩
  simp only [makeDirectory, checked, bind, Except.bind, (along walked).2]

theorem node?_inside (tree : FileTree) (location : Location) (named : Path.IsName name) :
    tree.node? (location ++ [name]) = Entries.get? (location ++ [name]) tree.nodes := by
  have root : location ++ [name] ≠ [[Path.separator]] := by
    intro same
    obtain ⟨_, alone⟩ | ⟨_, absent⟩ := List.append_eq_singleton_iff.mp same
    · obtain rfl := List.singleton_inj.mp alone
      exact named.whole List.mem_cons_self
    · cases absent
  have down : ¬ (location ++ [name]).all (· = up) = true := by
    simp [named.down]
  rw [node?, if_neg (not_or.mpr ⟨root, down⟩)]

end FileTree
end Intake
