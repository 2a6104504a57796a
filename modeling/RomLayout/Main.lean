import RomLayout.Command.Run

set_option autoImplicit false

/-!
The command line program. It looks up the files that a run needs, prepares the run,
prints what it says and writes the one file that may be left to write.
-/

namespace RomLayout.Command

def faultOf : IO.Error → Fault
  | .noFileOrDirectory .. => .notFound
  | .inappropriateType _ 20 _ => .notDirectory
  | .inappropriateType _ 21 _ => .isDirectory
  | error => .other (toString error)

/-- Stands for the room that the system gives a directory. -/
def directorySize : UInt64 := 4096

def lookUp (path : Path) : IO (Except Fault FileNode) := do
  try
    let bytes ← IO.FS.readBinFile path.text
    return .ok (.file bytes.toList)
  catch error =>
    match faultOf error with
    | .isDirectory => return .ok (.directory directorySize)
    | fault => return .error fault

def lookUpAll (paths : List Path) : IO (List (Path × Except Fault FileNode)) :=
  paths.mapM fun path => return (path, ← lookUp path)

/-- The answers that were looked up before. -/
def answers (table : List (Path × Except Fault FileNode)) : Lookup := fun path =>
  (table.lookup path).getD (.error .notFound)

def writeFile (writing : Writing) : IO (Except Fault Unit) := do
  try
    IO.FS.writeFile writing.path.text writing.text
    return .ok ()
  catch error => return .error (faultOf error)

def runOnDisk (settings : Settings) : IO Ending := do
  let description ← lookUpAll [settings.inputPath]
  let included ← match Description.load (answers description) settings.inputPath with
    | .ok loaded => lookUpAll (loaded.includePaths settings.directory settings.basePath)
    | .error _ => pure []
  let preparation := prepare settings (answers (description ++ included))
  match preparation.outcome with
  | .error error => return .failure preparation.output error
  | .ok none => return .success preparation.output
  | .ok (some writing) => return .afterWriting preparation.output (← writeFile writing)

def helpText : String :=
  String.join (List.map line
    ["gblink 0.1.0",
      "  Section layout resolver for banked 8-bit ROM images",
      "",
      "Usage:",
      "  gblink [OPTIONS] [INPUT]",
      "",
      "Arguments:",
      "  [INPUT]  Layout description [default: layout.yaml]",
      "",
      "Options:",
      "  -j, --json <JSON>  Write a JSON dump of all sections (`stdout` to print it)",
      "  -b, --base <BASE>  Project base directory for `/` rooted includes",
      "      --strict       Reject sections sharing bytes in the same region and bank",
      "  -v, --verbose      Enable verbose output",
      "  -h, --help         Print help",
      "  -V, --version      Print version"])

def ending (arguments : List String) : IO Ending :=
  match parse arguments with
  | none => return .usage
  | some (.ask question) => return .answer helpText question
  | some (.run settings) => runOnDisk settings

end RomLayout.Command

def main (arguments : List String) : IO UInt32 := do
  let ending ← RomLayout.Command.ending arguments
  IO.print ending.output
  return ending.exitCode.toUInt32
