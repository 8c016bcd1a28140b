import Intake.CommandLine.Import

/-! The program: what a call of it comes to, from its arguments to its exit code. -/
namespace Intake.CommandLine

def programName : Text := "contact-importer"

/-- The name by which the program explains itself if it is called without arguments. -/
def moduleName : Text := "python -m contact_importer"

inductive Request
  /-- an explanation of the program, since there are no arguments -/
  | explanation
  | stop (stop : Stop)
  | run (arguments : Arguments)
  deriving DecidableEq, Repr

/-- What the arguments of a call ask for. Only some calls are explained without arguments. -/
def Request.of (explains : Bool) (arguments : List Text) : Request :=
  if explains && arguments.isEmpty then .explanation
  else
    match Arguments.read arguments with
    | .ok arguments => .run arguments
    | .error why => .stop why

structure Notice where
  output : Text
  errors : Text
  exit : Nat
  deriving DecidableEq, Repr

/-- Help is asked for and is no error; what is wrong with arguments is. -/
def Stop.notice : Stop → Notice
  | .help => ⟨helpText programName, [], 0⟩
  | .wrong error => ⟨[], error.report programName, 2⟩

/-- An explanation that was not asked for. -/
def explanation : Notice := ⟨helpText moduleName, [], 2⟩

structure Ending (σ : Type) where
  exit : Except Crash ExitCode
  /-- what the operator was asked -/
  asked : Option Text
  /-- the records that pass the threshold of the arguments -/
  log : List Log.Record
  tree : FileTree
  /-- whoever delivered -/
  courier : σ

def perform {ω σ : Type} (registry : Registry ω) (place : Place) (arguments : Arguments)
    (answer : Option Text) (carrier : Plan ω → Carrier σ) (s : σ) : Ending σ :=
  let passing (log : List Log.Record) : List Log.Record :=
    (settingsLog place arguments ++ log).filter
      (Log.Record.passes (Log.threshold arguments.logLevel))
  match setUp registry place arguments with
  | .error (.refused record) => ⟨.ok .notStarted, none, passing [record], place.tree, s⟩
  | .error (.crash crash) => ⟨.error crash, none, passing [], place.tree, s⟩
  | .ok (plan, i) =>
    let course := runImport place arguments answer (carrier plan) i s
    ⟨course.exit, course.asked, passing course.final.log, course.final.tree, course.courier⟩

/-- What the operator will be asked, found out without any delivery. -/
def foreseeQuestion {ω : Type} (registry : Registry ω) (place : Place) (arguments : Arguments) :
    Option Text :=
  match setUp registry place arguments with
  | .error _ => none
  | .ok (_, i) =>
    match (openInput arguments).run.run i with
    | (.error _, _) => none
    | (.ok saved, _) => question? arguments saved

/-! What a call needs to find. -/

/-- The variables of the environment that a call reads, apart from that of the home directory. -/
def variableNames : List Text := [Settings.configVariable, Settings.tokenVariable]

def filesOf (arguments : Arguments) (environment : Entries Text Text) : List Path :=
  let config := Settings.source? arguments.config environment
  ([some arguments.input, config, arguments.errorsOut].filterMap id).map Path.ofText

def progressFile? (place : Place) (arguments : Arguments) : Option Path := do
  let settings ← (Settings.load place.tree arguments.config place.environment).toOption
  let directory ← (Settings.directoryAt place.homeOf settings.checkpointDirectory).toOption
  return Medium.fileOf directory
    (progressKey arguments.workspace (Path.ofText arguments.input).name)

end Intake.CommandLine
