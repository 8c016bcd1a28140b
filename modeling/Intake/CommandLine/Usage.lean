import Intake.CommandLine.Flag

/-! The usage and the help of the command line, filled to lines of a fixed width. -/
namespace Intake.CommandLine

def lineWidth : Nat := 78

def helpColumn : Nat := 24

def spaces (n : Nat) : Text := List.replicate n (.scalar ' ')

/-- Fills lines with parts that are never divided. `current` holds the parts of the line so far,
latest first, and `used` counts its characters with the indent and one blank after each part. -/
def fillFrom (width indent used : Nat) (current : List Text) : List Text → List (List Text)
  | [] => if current.isEmpty then [] else [current.reverse]
  | part :: rest =>
    if width < used + part.length ∧ ¬ current.isEmpty then
      current.reverse :: fillFrom width indent (indent + part.length + 1) [part] rest
    else fillFrom width indent (used + part.length + 1) (part :: current) rest

/-- The lines of some parts. The indent of each counts, but is left to the caller. -/
def fill (width indent : Nat) (parts : List Text) : List Text :=
  (fillFrom width indent indent [] parts).map (Text.join " ")

def usageParts : List Text :=
  [ "[" ++ Flag.shortHelp ++ "]", Flag.workspace.spelling, "WORKSPACE",
    "[" ++ Flag.config.synopsis ++ "]", "[" ++ Flag.list.synopsis ++ "]",
    "[" ++ Flag.map.synopsis ++ "]",
    "[" ++ Flag.resume.spelling ++ " | " ++ Flag.fresh.spelling ++ "]",
    "[" ++ Flag.dryRun.spelling ++ "]", "[" ++ Flag.errorsOut.synopsis ++ "]",
    "[" ++ Flag.logLevel.synopsis ++ "]"]

def inputName : Text := "input"

def usageText (program : Text) : Text :=
  let lead : Text := "usage: " ++ program ++ " "
  let lines := fill lineWidth lead.length usageParts ++ [inputName]
  lead ++ Text.join ("\n" ++ spaces lead.length) lines ++ "\n"

/-- What an argument is for: on its own line, or on the next ones if its synopsis is long. -/
def entry (synopsis explanation : Text) : Text :=
  let lines := fill (lineWidth - helpColumn) 0 (Text.split (.scalar ' ') explanation)
  let lead : Text := spaces 2 ++ synopsis
  let lead :=
    if lead.length + 2 ≤ helpColumn then lead ++ spaces (helpColumn - lead.length)
    else lead ++ "\n" ++ spaces helpColumn
  lead ++ Text.join ("\n" ++ spaces helpColumn) lines ++ "\n"

def fullSynopsis : Flag → Text
  | .help => Flag.shortHelp ++ ", " ++ Flag.help.spelling
  | flag => flag.synopsis

def helpText (program : Text) : Text :=
  usageText program ++ "\nImport contacts from a CSV file into a workspace\n\npositional arguments:\n" ++
    entry inputName "Path to the CSV (or TSV) file to import" ++ "\noptions:\n" ++
    Flag.all.flatMap fun flag => entry (fullSynopsis flag) flag.explanation

end Intake.CommandLine
