import Intake.Calendar.Reader
import Intake.CommandLine.Program
import Intake.Delivery.Registry
import Std.Time.DateTime.Timestamp

/-! The command line of the importer. A call is performed on a tree of the files that it may need,
and what it changed in the tree is then changed in the system. -/
namespace Intake.CommandLine

/-- A text as the system takes it. A surrogate is left out, as no argument has one. -/
def spoken (t : Text) : String := String.ofList (t.filterMap CodePoint.char?)

/-- The tree with what the system has at a path and on the way to it. What is there but cannot be
read is taken for a directory. -/
def discover (tree : FileTree) (path : Path) : IO FileTree :=
  (List.range path.parts.length).foldlM (fun tree n => do
    let way : Path := ⟨path.root, path.parts.take (n + 1)⟩
    match tree.locate way, ← (IO.FS.readBinFile (spoken way.text)).toBaseIO with
    | .error _, _ | _, .error (.noFileOrDirectory ..) => return tree
    | .ok location, .ok bytes => return tree.place location (.file (.bytes bytes.toList))
    | .ok location, .error _ => return tree.place location .directory) tree

/-- Changes in the system what differs between two trees. -/
def settle (before after : FileTree) : IO Unit := do
  for (location, node) in after.nodes do
    if before.node? location ≠ some node then
      let path := spoken (FileTree.pathOf location).text
      match node with
      | .directory => IO.FS.createDir path
      | .file content => IO.FS.writeBinFile path ⟨content.encode.toArray⟩
  for (location, _) in before.nodes do
    if (after.node? location).isNone then
      IO.FS.removeFile (spoken (FileTree.pathOf location).text)

def readVariables (names : List Text) : IO (Entries Text Text) :=
  names.filterMapM fun name => do
    return (← IO.getEnv (spoken name)).map fun value => (name, Text.ofString value)

/-- Delivery without a network: a dry run accepts what it is given, and no request is answered. -/
def carrierHere (plan : Plan OwnCourier) : Carrier Unit where
  deliver delivery _ :=
    match plan.courier with
    | .dry | .other .dry => (⟨false, .accepted⟩, ())
    | .http .. | .other (.http _) =>
      (⟨false, .rejected ⟨"NoNetwork", "Request to " ++ Http.path delivery ++ " failed: no network"⟩⟩,
        ())
  dismiss _ := (.accepted, ())

/-- Puts a question to the operator. An input that has ended is no answer. -/
def ask (question : Text) : IO (Option Text) := do
  let output ← IO.getStdout
  output.putStr (spoken question)
  output.flush
  let line ← (← IO.getStdin).getLine
  return if line.isEmpty then none else some (Text.ofString line)

def serve (arguments : Arguments) : IO UInt32 := do
  let environment ← readVariables variableNames
  let home := Path.ofText (Text.ofString ((← IO.getEnv "HOME").getD "~"))
  let ⟨directory⟩ ← IO.currentDir
  let now := (← Std.Time.Timestamp.now).toMillisecondsSinceUnixEpoch.val
  let tree ← (filesOf arguments environment).foldlM discover .empty
  let place : Place := ⟨environment, tree, home, Path.ofText (Text.ofString directory), now, .own⟩
  let tree ← (progressFile? place arguments).toList.foldlM discover tree
  let place := { place with tree }
  let registry := Registry.own id []
  let answer ← match foreseeQuestion registry place arguments with
    | some question => ask question
    | none => pure none
  let ending := perform registry place arguments answer carrierHere ()
  for record in ending.log do
    IO.eprintln (spoken (record.level.name ++ ":" ++ record.source ++ ":" ++ record.message))
  settle tree ending.tree
  match ending.exit with
  | .ok code => return code.number.toUInt32
  | .error crash =>
    IO.eprintln (spoken crash.message)
    return 1

end Intake.CommandLine

open Intake Intake.CommandLine in
def main (args : List String) : IO UInt32 := do
  let noticed (notice : Notice) : IO UInt32 := do
    IO.print (spoken notice.output)
    IO.eprint (spoken notice.errors)
    return notice.exit.toUInt32
  match Request.of false (args.map Text.ofString) with
  | .explanation => noticed explanation
  | .stop why => noticed why.notice
  | .run arguments => serve arguments
