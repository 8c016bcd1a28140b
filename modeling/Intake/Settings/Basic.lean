import Intake.Files.Path
import Intake.Number.Numeral
import Intake.Settings.Datum
import Intake.Text.Quoted

/-! The settings of an import, as a configuration gives them. -/
namespace Intake

inductive ConfigError
  | notFound (path : Path)
  | unsupported (suffix : Text)
  | invalidJson (path : Path) (detail : Text)
  | invalidYaml (path : Path)
  | notMap (path : Path)
  | notSection (name : Text)
  | notNumber (name : Text)
  | badBatchSize
  | badFreshness
  | badOptions
  | badAddress
  | badClassPath (path : Text)
  | undefinedClass (module name : Text)
  deriving DecidableEq, Repr

def supportedSuffixes : List Text := [".json", ".yaml", ".yml"]

namespace ConfigError

def ofFile (path : Path) (rest : Text) : Text := "Configuration file '" ++ path.text ++ "' " ++ rest

def message : ConfigError → Text
  | notFound path => ofFile path "was not found"
  | unsupported suffix =>
    "Unsupported configuration format '" ++ suffix ++ "'. Supported extensions: ["
      ++ Text.join ", " (supportedSuffixes.map Text.quoted) ++ "]"
  | invalidJson path detail => ofFile path ("is not valid JSON: " ++ detail)
  | invalidYaml path => ofFile path "is not valid YAML"
  | notMap path => ofFile path "must contain a mapping at the top level"
  | notSection name => "Configuration section '" ++ name ++ "' must be a mapping"
  | notNumber name => "'" ++ name ++ "' must be a number"
  | badBatchSize => "'import.batch_size' must be a positive integer"
  | badFreshness => "'checkpoints.freshness_days' must be positive"
  | badOptions => "'writer.options' must be a mapping"
  | badAddress => "Configuration missing required 'api.base_url' field"
  | badClassPath path => "Invalid writer class path '" ++ path ++ "'"
  | undefinedClass module name =>
    "Module '" ++ module ++ "' does not define '" ++ name ++ "'"

end ConfigError

inductive SettingsError
  | invalid (error : ConfigError)
  /-- an integer beyond the range of floating point -/
  | overflow
  /-- a directory that is no text -/
  | notPath
  deriving DecidableEq, Repr

structure Settings where
  /-- the address of the service -/
  address : Datum
  token : Datum
  timeout : Option Binary64
  checkpointDirectory : Path
  freshnessDays : Binary64
  batchSize : Int
  callsPerMinute : Option Binary64
  delaySeconds : Binary64
  /-- the class path of another way of delivery -/
  delivery : Datum
  deliveryOptions : List (Datum × Datum)

namespace Settings

/-- A configuration or one of its sections. -/
abbrev Section := List (Datum × Datum)

def defaultDirectory : Path := Path.ofText "~/.contact_importer/checkpoints"

def default : Settings where
  address := .null
  token := .null
  timeout := some (.ofRat 30)
  checkpointDirectory := defaultDirectory
  freshnessDays := .ofRat 7
  batchSize := 25
  callsPerMinute := none
  delaySeconds := .zero false
  delivery := .null
  deliveryOptions := []

/-- A section; one that says nothing is empty. -/
def section? (config : Section) (name : Text) : Except SettingsError Section :=
  match Datum.get? name config with
  | none => .ok []
  | some (.map entries) => .ok entries
  | some datum => if datum.isVoid then .ok [] else .error (.invalid (.notSection name))

/-- Reads a numeral of a configuration. Its digits may be separated by underscores, and an information
separator is no blank around it. -/
def numeral? (t : Text) : Option Binary64 :=
  if t.any fun c => 0x1C ≤ c.value && c.value ≤ 0x1F then none
  else (Binary64.dropSeparators? t).bind Binary64.ofText?

/-- The ASCII text that bytes are. -/
def asciiOf? (bytes : Bytes) : Option Text :=
  if bytes.all (· < 0x80) then some (bytes.map fun b => .scalar (Char.ofNat b.toNat)) else none

/-- The floating-point value of a datum. -/
def real (name : Text) : Datum → Except SettingsError Binary64
  | .boolean value => .ok (.ofRat (if value then 1 else 0))
  | .integer value =>
    match Binary64.ofInt? value with
    | some x => .ok x
    | none => .error .overflow
  | .real value => .ok value
  | .text t =>
    match numeral? t with
    | some x => .ok x
    | none => .error (.invalid (.notNumber name))
  | .bytes value =>
    match (asciiOf? value).bind numeral? with
    | some x => .ok x
    | none => .error (.invalid (.notNumber name))
  | _ => .error (.invalid (.notNumber name))

/-- The floating-point value of a datum, if there is one that is not null or an empty text. -/
def optionalReal (name : Text) : Datum → Except SettingsError (Option Binary64)
  | .null | .text [] => .ok none
  | datum => (real name datum).map some

def batchSizeOf (datum : Datum) : Except SettingsError Int :=
  match datum with
  | .integer n => if 0 < n then .ok n else .error (.invalid .badBatchSize)
  | _ => .error (.invalid .badBatchSize)

def freshnessOf (datum : Datum) : Except SettingsError Binary64 := do
  match ← optionalReal "checkpoints.freshness_days" datum with
  | none => throw (.invalid .badFreshness)
  | some days => if days.le (.zero false) then throw (.invalid .badFreshness) else return days

def directoryOf (datum : Datum) : Except SettingsError Path :=
  if datum.isVoid then .ok defaultDirectory
  else match datum with
    | .text t => .ok (Path.ofText t)
    | _ => .error .notPath

/-- The delay after a delivery; a zero is a positive one. -/
def delayOf (delay : Option Binary64) : Binary64 :=
  match delay with
  | none => .zero false
  | some x => if x.isZero then .zero false else x

def ofConfig (config : Section) : Except SettingsError Settings := do
  let api ← section? config "api"
  let checkpoints ← section? config "checkpoints"
  let imports ← section? config "import"
  let writer ← section? config "writer"
  let get (entries : Section) (key : Text) (usual : Datum) : Datum :=
    (Datum.get? key entries).getD usual
  let batchSize ← batchSizeOf (get imports "batch_size" (.integer 25))
  let freshnessDays ← freshnessOf (get checkpoints "freshness_days" (.integer 7))
  let .map deliveryOptions := get writer "options" (.map []) | throw (.invalid .badOptions)
  let timeout ← optionalReal "api.timeout" (get api "timeout" (.real (.ofRat 30)))
  let checkpointDirectory ← directoryOf (get checkpoints "directory" .null)
  let callsPerMinute ←
    optionalReal "writer.rate_limit_per_minute" (get writer "rate_limit_per_minute" .null)
  let delay ← optionalReal "writer.delay_seconds" (get writer "delay_seconds" .null)
  return {
    address := get api "base_url" .null
    token := get api "token" .null
    timeout, checkpointDirectory, freshnessDays, batchSize, callsPerMinute
    delaySeconds := delayOf delay
    delivery := get writer "class" .null
    deliveryOptions }

end Settings
end Intake
