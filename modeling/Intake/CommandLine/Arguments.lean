import Intake.CommandLine.Usage
import Intake.Text.Digit
import Intake.Text.Quoted

/-! Reading the arguments of the command line. A flag may be spelled by any beginning of its name
that is not the beginning of another one, and its value may follow it or an equals sign; after two
dashes on their own there are no more flags. -/
namespace Intake.CommandLine

structure Arguments where
  input : Text
  workspace : Text
  config : Option Text := none
  lists : List Text := []
  mappings : List Text := []
  resume : Bool := false
  fresh : Bool := false
  dryRun : Bool := false
  errorsOut : Option Text := none
  logLevel : Text := "INFO"
  deriving DecidableEq, Repr

inductive UsageError
  | ambiguous (argument : Text) (candidates : List Text)
  | missingValue (flag : Flag)
  | unwantedValue (flag : Flag) (value : Text)
  | excluded (flag other : Flag)
  | required (names : List Text)
  | unrecognized (arguments : List Text)
  deriving DecidableEq, Repr

namespace UsageError

def ofFlag (flag : Flag) (rest : Text) : Text := "argument " ++ flag.name ++ ": " ++ rest

def message : UsageError → Text
  | ambiguous argument candidates =>
    "ambiguous option: " ++ argument ++ " could match " ++ Text.join ", " candidates
  | missingValue flag => ofFlag flag "expected one argument"
  | unwantedValue flag value => ofFlag flag ("ignored explicit argument " ++ value.quoted)
  | excluded flag other => ofFlag flag ("not allowed with argument " ++ other.name)
  | required names => "the following arguments are required: " ++ Text.join ", " names
  | unrecognized arguments => "unrecognized arguments: " ++ Text.join " " arguments

end UsageError

inductive Stop
  /-- help was asked for -/
  | help
  | wrong (error : UsageError)
  deriving DecidableEq, Repr

inductive Mark
  | plain
  /-- the two dashes after which there are no more flags -/
  | dashes
  /-- a flag and the value that is part of the argument -/
  | flag (flag : Flag) (value : Option Text)
  /-- the short spelling of help with more letters behind it -/
  | cluster (letters : Text)
  /-- a flag that there is not -/
  | unknown
  deriving DecidableEq, Repr

/-- Whether a text is a negative number, which is not taken for a flag: digits with at most one
point, of which some follow the point; a line feed may follow them. -/
def isNegativeNumber (t : Text) : Bool :=
  let isDigit (c : CodePoint) : Bool := c.digit?.isSome
  let digits (t : Text) : Bool := !t.isEmpty && t.all isDigit
  let unended := if t.getLast? = some (.scalar '\n') then t.dropLast else t
  match unended with
  | .scalar '-' :: number =>
    digits number ||
      match number.dropWhile isDigit with
      | .scalar '.' :: fraction => digits fraction
      | _ => false
  | _ => false

def candidates (start : Text) : List Flag :=
  Flag.all.filter fun flag => start.isPrefixOf flag.spelling

/-- An argument that begins with a dash and spells no flag in full. -/
def markAbbreviation (argument : Text) : Except UsageError Mark :=
  let (start, value) :=
    match Text.cut? (.scalar '=') argument with
    | some (start, value) => (start, some value)
    | none => (argument, none)
  let found : List Mark :=
    if (Text.ofString "--").isPrefixOf argument then
      (candidates start).map fun flag => .flag flag value
    else if Flag.shortHelp.isPrefixOf argument then [.cluster (argument.drop 2)]
    else []
  match found with
  | [mark] => .ok mark
  | _ :: _ => .error (.ambiguous argument ((candidates start).map Flag.spelling))
  | [] =>
    .ok (if isNegativeNumber argument || argument.contains (.scalar ' ') then .plain else .unknown)

def mark (argument : Text) : Except UsageError Mark :=
  let spelled? (t : Text) (value : Option Text) : Option Mark :=
    let named (flag : Flag) : Bool :=
      flag.spelling = t || (flag = .help && t = Flag.shortHelp)
    (Flag.all.find? named).map fun flag => .flag flag value
  match argument with
  | .scalar '-' :: _ :: _ =>
    let split? := (Text.cut? (.scalar '=') argument).bind fun parts => spelled? parts.1 (some parts.2)
    match (spelled? argument none).or split? with
    | some mark => .ok mark
    | none => markAbbreviation argument
  | _ => .ok .plain

def markAll : List Text → Except UsageError (List (Text × Mark))
  | [] => .ok []
  | argument :: rest =>
    if argument = Text.ofString "--" then
      .ok ((argument, .dashes) :: rest.map fun argument => (argument, .plain))
    else
      match mark argument, markAll rest with
      | .error error, _ | _, .error error => .error error
      | .ok mark, .ok marks => .ok ((argument, mark) :: marks)

structure Reading where
  input? : Option Text := none
  workspace? : Option Text := none
  arguments : Arguments := ⟨[], [], none, [], [], false, false, false, none, "INFO"⟩
  /-- arguments that belong nowhere -/
  extras : List Text := []

namespace Reading

def skip (r : Reading) (argument : Text) : Reading := { r with extras := r.extras ++ [argument] }

def assign (r : Reading) (value : Text) : Flag → Reading
  | .workspace => { r with workspace? := some value }
  | .config => { r with arguments := { r.arguments with config := some value } }
  | .list => { r with arguments := { r.arguments with lists := r.arguments.lists ++ [value] } }
  | .map =>
    { r with arguments := { r.arguments with mappings := r.arguments.mappings ++ [value] } }
  | .errorsOut => { r with arguments := { r.arguments with errorsOut := some value } }
  | .logLevel => { r with arguments := { r.arguments with logLevel := value } }
  | .help | .resume | .fresh | .dryRun => r

def raise (r : Reading) (flag : Flag) : Except Stop Reading :=
  match flag with
  | .help => .error .help
  | .resume =>
    if r.arguments.fresh then .error (.wrong (.excluded .resume .fresh))
    else .ok { r with arguments := { r.arguments with resume := true } }
  | .fresh =>
    if r.arguments.resume then .error (.wrong (.excluded .fresh .resume))
    else .ok { r with arguments := { r.arguments with fresh := true } }
  | .dryRun => .ok { r with arguments := { r.arguments with dryRun := true } }
  | _ => .ok r

/-- What letters behind the short spelling of help come to: it may be repeated, but it takes no
value. A letter that means nothing does not keep help from being given. -/
def stopAt : Text → Stop
  | [] => .help
  | c :: rest =>
    if c = .scalar '-' then .wrong (.unwantedValue .help (c :: rest))
    else if c = .scalar 'h' then
      match rest with
      | .scalar '=' :: value => .wrong (.unwantedValue .help value)
      | rest => stopAt rest
    else .help

def readAll (r : Reading) : List (Text × Mark) → Except Stop Reading
  | [] => .ok r
  | (argument, .unknown) :: rest => (r.skip argument).readAll rest
  | (_, .cluster letters) :: _ => .error (stopAt letters)
  | (_, .flag flag value?) :: rest =>
    if flag.takesValue then
      match value?, rest with
      | some value, rest => (r.assign value flag).readAll rest
      | none, (value, .plain) :: rest => (r.assign value flag).readAll rest
      | none, _ => .error (.wrong (.missingValue flag))
    else
      match value? with
      | some value => .error (.wrong (.unwantedValue flag value))
      | none =>
        match r.raise flag with
        | .error stop => .error stop
        | .ok r => r.readAll rest
  | (argument, .dashes) :: rest =>
    match r.input?, rest with
    | none, (input, .plain) :: rest => { r with input? := some input }.readAll rest
    | _, rest => (r.skip argument).readAll rest
  | (argument, .plain) :: rest =>
    match r.input?, rest with
    | some _, rest => (r.skip argument).readAll rest
    | none, (_, .dashes) :: rest => { r with input? := some argument }.readAll rest
    | none, rest => { r with input? := some argument }.readAll rest

def finish (r : Reading) : Except Stop Arguments :=
  match r.input?, r.workspace? with
  | some input, some workspace =>
    if r.extras.isEmpty then .ok { r.arguments with input, workspace }
    else .error (.wrong (.unrecognized r.extras))
  | input?, workspace? =>
    .error (.wrong (.required
      ((if input?.isNone then [inputName] else []) ++
        (if workspace?.isNone then [Flag.workspace.spelling] else []))))

end Reading

def Arguments.read (arguments : List Text) : Except Stop Arguments :=
  match markAll arguments with
  | .error error => .error (.wrong error)
  | .ok marks =>
    match ({} : Reading).readAll marks with
    | .error stop => .error stop
    | .ok reading => reading.finish

def UsageError.report (program : Text) (error : UsageError) : Text :=
  usageText program ++ program ++ ": error: " ++ error.message ++ "\n"

end Intake.CommandLine
