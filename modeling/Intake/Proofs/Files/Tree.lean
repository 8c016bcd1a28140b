import Intake.Files.Tree
import Intake.Proofs.Entries
import Mathlib.Data.Option.Basic
import Mathlib.Tactic.SplitIfs

/-! What a path leads to when a tree of files changes: a file that was put there, the node that was
there if the tree only gets more directories, and no other file if one is taken away. -/
namespace Intake

namespace FileTree

/-- Names are followed the same way in a tree that has all the directories of another one. -/
theorem walk_of_directories {tree other : FileTree}
    (kept : ∀ location, tree.node? location = some .directory →
      other.node? location = some .directory)
    {start location : Location} {names : List Text}
    (walked : tree.walk start names = .ok location) : other.walk start names = .ok location := by
  induction names generalizing start with
  | nil => simpa [walk] using walked
  | cons name rest ih =>
    simp only [walk] at walked ⊢
    cases here : tree.node? start with
    | none => simp [here] at walked
    | some node =>
      cases node with
      | file content => simp [here] at walked
      | directory =>
        simp only [here] at walked
        simp only [kept start here]
        split at walked
        · simp at walked
        · rename_i short
          rw [if_neg short]
          exact ih walked

theorem locate_of_directories {tree other : FileTree}
    (kept : ∀ location, tree.node? location = some .directory →
      other.node? location = some .directory)
    {p : Path} {location : Location} (found : tree.locate p = .ok location) :
    other.locate p = .ok location := by
  simp only [locate, bind, Except.bind] at found ⊢
  cases names : checkNames p with
  | error error => simp [names] at found
  | ok _ =>
    simp only [names] at found ⊢
    exact walk_of_directories kept found

def destination (p : Path) : Location :=
  p.parts.foldl under (if p.isAbsolute then [[Path.separator]] else [])

private theorem foldl_of_walk {tree : FileTree} {start location : Location} {names : List Text}
    (walked : tree.walk start names = .ok location) : names.foldl under start = location := by
  induction names generalizing start with
  | nil => exact Except.ok.inj walked
  | cons name rest ih =>
    rw [walk] at walked
    split at walked
    · cases walked
    · cases walked
    · split at walked
      · cases walked
      · exact ih walked

theorem destination_of_locate {tree : FileTree} {p : Path} {location : Location}
    (found : tree.locate p = .ok location) : destination p = location := by
  simp only [locate, bind, Except.bind] at found
  split at found
  · cases found
  · exact foldl_of_walk found

theorem find_eq_ok {tree : FileTree} {p : Path} {node : Node} : tree.find p = .ok node ↔
    ∃ location, tree.locate p = .ok location ∧ tree.node? location = some node := by
  simp only [find, bind, Except.bind]
  cases tree.locate p with
  | error error => simp
  | ok location =>
    cases here : tree.node? location <;>
      simp [here, pure, Except.pure, throw, throwThe, MonadExceptOf.throw]

theorem find_eq_missing {tree : FileTree} {p : Path} : tree.find p = .error .missing ↔
    tree.locate p = .error .missing ∨
      ∃ location, tree.locate p = .ok location ∧ tree.node? location = none := by
  simp only [find, bind, Except.bind]
  cases tree.locate p with
  | error error => simp
  | ok location =>
    cases here : tree.node? location <;>
      simp [here, pure, Except.pure, throw, throwThe, MonadExceptOf.throw]

private theorem ordinary_of_node? {tree : FileTree} {location : Location}
    (other : tree.node? location ≠ some .directory) :
    ¬ (location = [[Path.separator]] ∨ location.all (· = up) = true) :=
  fun special => other (by simp only [node?, if_pos special])

section
variable {tree : FileTree} {location : Location}

theorem not_mem_of_free (free : tree.node? location = none) : location ∉ Entries.keys tree.nodes := by
  rw [← Entries.get?_eq_none]
  unfold node? at free
  split_ifs at free
  exact free

theorem node?_place (ordinary : tree.node? location ≠ some .directory) (node : Node) (l : Location) :
    (tree.place location node).node? l = if location = l then some node else tree.node? l := by
  have special := ordinary_of_node? ordinary
  split_ifs with same
  · subst same
    rw [node?, if_neg special, place, Entries.get?_put, if_pos rfl]
  · simp only [node?, place, Entries.get?_put, if_neg same]

/-- What is put at a free place and taken away again leaves the tree that there was. -/
theorem withdrawn (free : tree.node? location = none) (node : Node) :
    (⟨Entries.erase location (tree.place location node).nodes⟩ : FileTree) = tree := by
  rw [place, Entries.erase_put, Entries.erase_absent (not_mem_of_free free)]

theorem place_place (first second : Node) :
    (tree.place location first).place location second = tree.place location second := by
  simp only [place, Entries.put_put]

/-- A file that is put where a path leads to is what the path leads to. -/
theorem find_place {p : Path} (located : tree.locate p = .ok location)
    (ordinary : tree.node? location ≠ some .directory) (content : Content) :
    (tree.place location (.file content)).find p = .ok (.file content) := by
  have nodes := node?_place ordinary (.file content)
  have kept (l : Location) (directory : tree.node? l = some .directory) :
      (tree.place location (.file content)).node? l = some .directory := by
    have apart : location ≠ l := by
      rintro rfl
      exact ordinary directory
    rw [nodes, if_neg apart, directory]
  exact find_eq_ok.mpr ⟨location, locate_of_directories kept located, by rw [nodes, if_pos rfl]⟩

theorem store_eq_place {p : Path} (located : tree.locate p = .ok location)
    (ordinary : tree.node? location ≠ some .directory) (content : Content) :
    tree.store p content = .ok (tree.place location (.file content)) := by
  simp only [store, located, bind, Except.bind]
  rfl

theorem read_place {p : Path} (located : tree.locate p = .ok location)
    (ordinary : tree.node? location ≠ some .directory) (content : Content) :
    (tree.place location (.file content)).read p = .ok content.encode := by
  simp only [read, find_place located ordinary, bind, Except.bind]
  rfl

/-- A new file can be moved onto any path that leads to no directory; it is then the file there, and
nothing else has changed. -/
theorem move_placed (free : tree.node? location = none) {content : Content} {p : Path}
    {next : FileTree} :
    (tree.place location (.file content)).move location p = .ok next ↔
      ∃ target, tree.locate p = .ok target ∧ tree.node? target ≠ some .directory ∧
        next = tree.place target (.file content) := by
  have ordinary : tree.node? location ≠ some .directory := by simp [free]
  have nodes := node?_place ordinary (.file content)
  have source : (tree.place location (.file content)).node? location = some (.file content) := by
    rw [nodes, if_pos rfl]
  have cleared : Entries.erase location (tree.place location (.file content)).nodes = tree.nodes :=
    congrArg FileTree.nodes (withdrawn free (.file content))
  -- The new file hides no directory, and is none.
  have directories (l : Location) : (tree.place location (.file content)).node? l = some .directory ↔
      tree.node? l = some .directory := by
    rw [nodes]
    split_ifs with same
    · simp [← same, free]
    · rfl
  simp only [move, bind, Except.bind]
  constructor
  · intro moved
    cases located : (tree.place location (.file content)).locate p with
    | error error => simp [located] at moved
    | ok target =>
      have found := locate_of_directories (fun l here => (directories l).mp here) located
      have free : tree.node? target ≠ some .directory := fun here => by
        simp [located, source, (directories target).mpr here, throw, throwThe, MonadExceptOf.throw]
          at moved
      refine ⟨target, found, free, ?_⟩
      simp only [located, source, cleared] at moved
      split at moved
      · cases moved
      · rename_i same _
        cases same
        cases moved
        rfl
      · rename_i absent _
        cases absent
  · rintro ⟨target, found, free, rfl⟩
    have located := locate_of_directories (fun l here => (directories l).mpr here) found
    have still := (directories target).not.mpr free
    simp only [located, source, cleared]
    rfl

end

structure Retains (tree other : FileTree) : Prop where
  files : ∀ location content,
    other.node? location = some (.file content) ↔ tree.node? location = some (.file content)
  directories : ∀ location, tree.node? location = some .directory →
    other.node? location = some .directory

namespace Retains
variable {tree other third : FileTree}

theorem refl (tree : FileTree) : tree.Retains tree := ⟨fun _ _ => Iff.rfl, fun _ here => here⟩

theorem trans (first : tree.Retains other) (second : other.Retains third) : tree.Retains third where
  files location content := (second.files location content).trans (first.files location content)
  directories location here := second.directories location (first.directories location here)

theorem find (kept : tree.Retains other) {p : Path} {node : Node} (found : tree.find p = .ok node) :
    other.find p = .ok node := by
  obtain ⟨location, located, here⟩ := find_eq_ok.mp found
  refine find_eq_ok.mpr ⟨location, locate_of_directories kept.directories located, ?_⟩
  cases node with
  | directory => exact kept.directories location here
  | file content => exact (kept.files location content).mpr here

theorem place_directory {location : Location} (free : tree.node? location = none) :
    tree.Retains (tree.place location .directory) := by
  have nodes := node?_place (show tree.node? location ≠ some .directory by simp [free]) .directory
  constructor
  · intro l content
    rw [nodes]
    split_ifs with same
    · simp [← same, free]
    · rfl
  · intro l here
    rw [nodes]
    split_ifs
    · rfl
    · exact here

theorem makeAlong {names : List Text} {start : Location}
    (made : tree.makeAlong start names = .ok other) : tree.Retains other := by
  induction names generalizing tree start with
  | nil =>
    cases made
    exact refl _
  | cons name rest ih =>
    simp only [FileTree.makeAlong] at made
    split at made
    · cases made
    · cases here : tree.node? (under start name) with
      | none =>
        rw [here] at made
        exact (place_directory here).trans (ih made)
      | some node =>
        rw [here] at made
        cases node with
        | file content => cases made
        | directory => exact ih made

theorem makeDirectory {p : Path} (made : tree.makeDirectory p = .ok other) : tree.Retains other := by
  simp only [FileTree.makeDirectory, bind, Except.bind] at made
  split at made
  · cases made
  · exact makeAlong made

end Retains

private theorem walk_made {tree made : FileTree} {start : Location} {names : List Text}
    (done : tree.makeAlong start names = .ok made) (here : tree.node? start = some .directory) :
    ∃ location, made.walk start names = .ok location ∧ made.node? location = some .directory := by
  induction names generalizing tree start with
  | nil =>
    cases done
    exact ⟨start, rfl, here⟩
  | cons name rest ih =>
    have still := (Retains.makeAlong done).directories start here
    rw [walk, still]
    simp only [makeAlong] at done
    split at done
    · cases done
    · rename_i short
      simp only [if_neg short]
      cases next : tree.node? (under start name) with
      | none =>
        rw [next] at done
        refine ih done ?_
        rw [node?_place (by simp [next]), if_pos rfl]
      | some node =>
        rw [next] at done
        cases node with
        | file content => cases done
        | directory => exact ih done next

/-- A directory that was made is there. -/
theorem locate_made {tree made : FileTree} {p : Path} (done : tree.makeDirectory p = .ok made) :
    ∃ location, made.locate p = .ok location ∧ made.node? location = some .directory := by
  simp only [makeDirectory, locate, bind, Except.bind] at done ⊢
  split at done
  · cases done
  · refine walk_made done ?_
    rw [node?, if_pos]
    split_ifs <;> simp

section
variable {tree : FileTree} {location : Location} {content : Content}

private theorem directories_erase (here : tree.node? location = some (.file content))
    (l : Location) (directory : tree.node? l = some .directory) :
    node? ⟨Entries.erase location tree.nodes⟩ l = some .directory := by
  have apart : location ≠ l := by
    rintro rfl
    rw [here] at directory
    cases directory
  simpa [node?, Entries.get?_erase, apart] using directory

private theorem node?_erase_none {l : Location} (free : tree.node? l = none) :
    node? ⟨Entries.erase location tree.nodes⟩ l = none := by
  unfold node? at free ⊢
  split_ifs at free ⊢ with special
  by_cases same : location = l
  · simp [Entries.get?_erase, same]
  · simpa [Entries.get?_erase, same] using free

private theorem walk_erase_missing (here : tree.node? location = some (.file content))
    {start : Location} {names : List Text} (lost : tree.walk start names = .error .missing) :
    walk ⟨Entries.erase location tree.nodes⟩ start names = .error .missing := by
  induction names generalizing start with
  | nil => cases lost
  | cons name rest ih =>
    simp only [walk] at lost ⊢
    cases found : tree.node? start with
    | none => rw [node?_erase_none found]
    | some node =>
      rw [found] at lost
      cases node with
      | file content => cases lost
      | directory =>
        rw [directories_erase here start found]
        dsimp only at lost ⊢
        split_ifs at lost ⊢ with long
        · cases lost
        · exact ih lost

private theorem locate_erase_missing (here : tree.node? location = some (.file content)) {p : Path}
    (lost : tree.locate p = .error .missing) :
    locate ⟨Entries.erase location tree.nodes⟩ p = .error .missing := by
  simp only [locate, bind, Except.bind] at lost ⊢
  cases names : checkNames p with
  | error error =>
    unfold checkNames at names
    rw [checkNames] at lost
    split_ifs at names lost <;> cases names <;> cases lost
  | ok _ =>
    rw [names] at lost
    exact walk_erase_missing here lost

theorem find_erase_missing (here : tree.node? location = some (.file content)) {p : Path}
    (lost : tree.find p = .error .missing) :
    find ⟨Entries.erase location tree.nodes⟩ p = .error .missing := by
  apply find_eq_missing.mpr
  rcases find_eq_missing.mp lost with lost | ⟨l, located, free⟩
  · exact .inl (locate_erase_missing here lost)
  · exact .inr ⟨l, locate_of_directories (directories_erase here) located, node?_erase_none free⟩

theorem find_erased (here : tree.node? location = some (.file content)) {p : Path}
    (located : tree.locate p = .ok location) :
    find ⟨Entries.erase location tree.nodes⟩ p = .error .missing := by
  refine find_eq_missing.mpr (.inr ⟨location, ?_, ?_⟩)
  · exact locate_of_directories (directories_erase here) located
  · have other : tree.node? location ≠ some .directory := by simp [here]
    rw [node?, if_neg (ordinary_of_node? other), Entries.get?_erase, if_pos rfl]

/-- A path leads to its node or to nothing once some file was taken away. -/
theorem find_erase (here : tree.node? location = some (.file content)) {p : Path} {node : Node}
    (found : tree.find p = .ok node) :
    find ⟨Entries.erase location tree.nodes⟩ p = .ok node ∨
      find ⟨Entries.erase location tree.nodes⟩ p = .error .missing := by
  obtain ⟨l, located, there⟩ := find_eq_ok.mp found
  by_cases same : location = l
  · subst same
    exact .inr (find_erased here located)
  · refine .inl (find_eq_ok.mpr ⟨l, locate_of_directories (directories_erase here) located, ?_⟩)
    unfold node? at there ⊢
    simpa [Entries.get?_erase, same] using there

end

end FileTree

end Intake
