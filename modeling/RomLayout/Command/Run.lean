import RomLayout.Command.Arguments
import RomLayout.Description.Reader
import RomLayout.Snapshot.Writer

set_option autoImplicit false

/-!
One run of the command: read a description, resolve the layout that it makes, show
the sections and write their snapshots.

`prepare` does all that needs no more than looking up files. What it leaves to do is
to write one file at most, so a run that fails has written nothing.
-/

namespace RomLayout.Command

/-- A terminal code, such as the one for a colour. -/
def code (number : String) : String := "\x1b[" ++ number ++ "m"

/-- Text between the code of a style and the code that ends it. -/
def styled (on off text : String) : String := code on ++ text ++ code off

def green (text : String) : String := styled "32" "39" text

def blue (text : String) : String := styled "34" "39" text

def dim (text : String) : String := styled "2" "22" text

def bold (text : String) : String := styled "1" "22" text

def underlined (text : String) : String := styled "4" "24" text

/-- The red and bold word in front of every message. -/
def errorMark : String := code "31" ++ code "1" ++ "error" ++ code "39" ++ code "22"

def line (text : String) : String := text ++ "\n"

/-- The lines that tell of an error: its message, the cause of a failed include,
and where it comes from. -/
def diagnostic (error : Error) : String :=
  let cause := match error with
    | .includeFailed _ _ cause =>
        line ("      " ++ blue "=" ++ " " ++ bold "cause" ++ ": " ++ cause.message)
    | _ => ""
  let origin := match error.location? with
    | some location =>
        line ("     " ++ blue "-->" ++ " "
          ++ underlined (location.file ++ ":#" ++ Numeral.decimal location.index))
    | none => ""
  line (errorMark ++ ": " ++ error.message) ++ cause ++ origin

structure Writing where
  path : Path
  text : String
  deriving DecidableEq

/-- What has been printed, and what is left to write unless the run has failed. -/
structure Preparation where
  output : String
  outcome : Except Error (Option Writing)

namespace Settings

/-- Whether the snapshots are printed, and nothing else. -/
def isQuiet (settings : Settings) : Bool := settings.json == some "stdout"

def directory (settings : Settings) : Path := settings.inputPath.directory

def basePath (settings : Settings) : Path := settings.base.getD settings.directory

/-- Lines of progress, which a quiet run keeps back. -/
def progress (settings : Settings) (lines : String) : String :=
  if settings.isQuiet then "" else lines

end Settings

def sectionLine (current : Section) : String :=
  line ("  " ++ green (current.summary .physical) ++ " "
    ++ dim ("(" ++ current.summary .cpu ++ ")"))

/-- The description that is asked for, as a layout. -/
def readLayout (settings : Settings) (files : Lookup) : Except Error Layout :=
  match Description.load files settings.inputPath with
  | .error error => .error error
  | .ok description => description.build files settings.directory settings.basePath

/-- The layout with every offset, checked for overlaps on demand. -/
def resolveLayout (settings : Settings) (layout : Layout) : Except Error Layout :=
  match layout.resolve with
  | (.error error, _) => .error error
  | (.ok _, resolved) =>
      if settings.isStrict then resolved.checkOverlaps.map fun _ => resolved else .ok resolved

def deliver (settings : Settings) (layout : Layout) : Preparation :=
  match settings.json with
  | none => ⟨"", .ok none⟩
  | some target =>
      let text := renderSnapshots layout.snapshots
      if settings.isQuiet then ⟨line text, .ok none⟩
      else
        ⟨line "3. Write Dump" ++ line ("  > " ++ target), .ok (some ⟨Path.ofString target, text⟩)⟩

/-- Everything that a run does before it writes. -/
def prepare (settings : Settings) (files : Lookup) : Preparation :=
  let reading := settings.progress
    (line "1. Read Layout" ++ line ("  < " ++ settings.inputPath.text))
  match readLayout settings files with
  | .error error => ⟨reading, .error error⟩
  | .ok layout =>
      let resolving := reading ++ settings.progress (line "2. Resolve Offsets")
      match resolveLayout settings layout with
      | .error error => ⟨resolving, .error error⟩
      | .ok resolved =>
          let shown := resolving
            ++ settings.progress (String.join (resolved.sections.map sectionLine))
          let delivery := deliver settings resolved
          ⟨shown ++ delivery.output, delivery.outcome⟩

structure Ending where
  exitCode : Nat
  output : String
  deriving DecidableEq

def successCode : Nat := 0

def failureCode : Nat := 1

def usageCode : Nat := 2

namespace Ending

def success (output : String) : Ending := ⟨successCode, output⟩

/-- An error is printed behind the other output. -/
def failure (output : String) (error : Error) : Ending :=
  ⟨failureCode, output ++ diagnostic error⟩

/-- The ending of a run that tried to write. -/
def afterWriting (output : String) : Except Fault Unit → Ending
  | .ok _ => success output
  | .error cause => failure output (.inputOutput cause)

/-- The answer to a question. The help text is given by the caller. -/
def answer (help : String) : Question → Ending
  | .version => success (line "gblink 0.1.0")
  | .help => success help

/-- Arguments without sense; what is wrong with them is no part of the output. -/
def usage : Ending := ⟨usageCode, ""⟩

end Ending

def runSettings (settings : Settings) (files : FileSystem) : Ending × FileSystem :=
  let preparation := prepare settings files.find
  match preparation.outcome with
  | .error error => (.failure preparation.output error, files)
  | .ok none => (.success preparation.output, files)
  | .ok (some writing) =>
      match files.write writing.path writing.text.toUTF8.toList with
      | .error cause => (.afterWriting preparation.output (.error cause), files)
      | .ok written => (.afterWriting preparation.output (.ok ()), written)

/-- A whole run, which prints `help` where it is asked for. The file of a description is
assumed to keep to the part of YAML that `Description.load` reads. -/
def run (help : String) (arguments : List String) (files : FileSystem) : Ending × FileSystem :=
  match parse arguments with
  | none => (.usage, files)
  | some (.ask question) => (.answer help question, files)
  | some (.run settings) => runSettings settings files

end RomLayout.Command
