import Intake.Checkpoint.Store
import Intake.Files.Tree
import Intake.Json.Reader
import Intake.Settings.Basic
import Intake.Yaml.Value

/-! Loading settings: from a file in JSON or YAML, which may be named by the environment; and the store
of progress that they make. -/
namespace Intake

inductive ConfigFailure
  | settings (error : SettingsError)
  | file (error : FileError)
  /-- a file that is not in UTF-8 -/
  | encoding
  /-- values nested too deeply -/
  | nested
  /-- a number of JSON with too many digits -/
  | digits (count : Nat)
  /-- a scalar of YAML that is not what its tag says -/
  | scalar (fault : Yaml.Fault)
  deriving DecidableEq, Repr

/-- Why settings make no store of progress. -/
inductive StoreError
  /-- an account whose name the system cannot be asked for -/
  | account (error : FileError)
  /-- an account without a home -/
  | homeless
  | window (error : TimeError)
  deriving DecidableEq, Repr

namespace Settings

def readJson (path : Path) (t : Text) : Except ConfigFailure Datum :=
  match Json.read t with
  | .ok value => .ok (.ofJson value)
  | .error .nested => .error .nested
  | .error (.digits count) => .error (.digits count)
  | .error error => .error (.settings (.invalid (.invalidJson path (error.message t))))

def readYaml (path : Path) (t : Text) : Except ConfigFailure Datum :=
  match Yaml.read t with
  | .ok datum => .ok datum
  | .error .malformed => .error (.settings (.invalid (.invalidYaml path)))
  | .error .nested => .error .nested
  | .error fault => .error (.scalar fault)

/-- Whether a file is there. A path that no file can have leads to none. -/
def isThere (tree : FileTree) (path : Path) : Except ConfigFailure Bool :=
  match tree.find path with
  | .ok _ => .ok true
  | .error .nameTooLong => .error (.file .nameTooLong)
  | .error _ => .ok false

def readConfig (tree : FileTree) (path : Path) : Except ConfigFailure Section := do
  if !(← isThere tree path) then throw (.settings (.invalid (.notFound path)))
  let suffix := path.suffix.lower
  if !supportedSuffixes.contains suffix then throw (.settings (.invalid (.unsupported path.suffix)))
  let bytes ← (tree.read path).mapError .file
  let some t := Text.decodeUtf8 false bytes | throw .encoding
  let t := t.unifyLineEnds
  let datum ← if suffix = Text.ofString ".json" then readJson path t else readYaml path t
  match datum with
  | .null => return []
  | .map entries => return entries
  | _ => throw (.settings (.invalid (.notMap path)))

def configVariable : Text := "CONTACT_IMPORTER_CONFIG"

/-- The name of the variable whose token prevails. -/
def tokenVariable : Text := "CONTACT_IMPORTER_API_TOKEN"

def nonEmpty (t : Option Text) : Option Text := t.filter fun t => !t.isEmpty

/-- The path of the configuration: the one that is given, or that of the environment. -/
def source? (path : Option Text) (environment : Entries Text Text) : Option Text :=
  (nonEmpty path).or (nonEmpty (Entries.get? configVariable environment))

/-- The settings in the configuration of a path or of the environment, or those without one. -/
def load (tree : FileTree) (path : Option Text) (environment : Entries Text Text) :
    Except ConfigFailure Settings := do
  let settings ←
    match source? path environment with
    | some path => do
      let config ← readConfig tree (Path.ofText path)
      (ofConfig config).mapError .settings
    | none => pure default
  match nonEmpty (Entries.get? tokenVariable environment) with
  | some token => return { settings with token := .text token }
  | none => return settings

/-- The directory that a path names. Where its first name begins with a tilde it lies in a home: that of
the account with the rest of the name, or the caller's own if there is no rest. -/
def directoryAt (homes : Text → Option Path) (p : Path) : Except StoreError Path :=
  match p.root, p.parts with
  | [], (.scalar '~' :: account) :: rest => do
    (FileTree.checkNames ⟨[], [account]⟩).mapError .account
    match homes account with
    | some home => return ⟨home.root, home.parts ++ rest⟩
    | none => throw .homeless
  | _, _ => return p

def checkpointStore (settings : Settings) (homes : Text → Option Path) (tree : FileTree)
    (now : Int) : Except StoreError ProgressStore := do
  let directory ← directoryAt homes settings.checkpointDirectory
  let window ← (Duration.ofDays (.real settings.freshnessDays)).mapError .window
  return ⟨.of (.files directory tree), window.millis, now⟩

end Settings
end Intake
