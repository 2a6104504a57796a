import RomLayout.Path

set_option autoImplicit false

/-!
The arguments of the command line. They are read from left to right; the first one
that makes no sense ends the reading, and so does a question about the program itself.

The value of an option follows in the same argument or in the next one. Behind a
lone `--` nothing is an option any more.
-/

namespace RomLayout.Command

structure Settings where
  input : Option Path
  /-- Where the snapshots go; `stdout` prints them. -/
  json : Option String
  base : Option Path
  isStrict : Bool
  isVerbose : Bool

inductive ValueOption where
  | json
  | base

/-- What can be asked about the program itself. -/
inductive Question where
  | version
  | help

inductive Flag where
  | strict
  | verbose
  | ask (question : Question)

inductive Request where
  | run (settings : Settings)
  | ask (question : Question)

namespace Settings

def none : Settings := ⟨.none, .none, .none, false, false⟩

def defaultInput : Path := Path.ofString "layout.yaml"

def inputPath (settings : Settings) : Path := settings.input.getD defaultInput

/-- A path argument, which must not be empty. -/
def path? (text : String) : Option Path :=
  if text = "" then .none else some (Path.ofString text)

/-- There is one input at most. -/
def setInput (settings : Settings) (text : String) : Option Settings :=
  if settings.input.isSome then .none
  else (path? text).map fun path => { settings with input := some path }

/-- An option may be given once. -/
def setOption (settings : Settings) (option : ValueOption) (value : String) : Option Settings :=
  match option with
  | .json => if settings.json.isSome then .none else some { settings with json := some value }
  | .base =>
      if settings.base.isSome then .none
      else (path? value).map fun path => { settings with base := some path }

end Settings

inductive Progress where
  | settings (settings : Settings)
  | asked (question : Question)
  /-- The next argument has to be the value of an option. -/
  | awaiting (option : ValueOption) (settings : Settings)

/-- A flag may be given once, and a question at any place. -/
def Settings.raise (settings : Settings) : Flag → Option Progress
  | .strict =>
      if settings.isStrict then .none else some (.settings { settings with isStrict := true })
  | .verbose =>
      if settings.isVerbose then .none else some (.settings { settings with isVerbose := true })
  | .ask question => some (.asked question)

def longOption? : String → Option (ValueOption ⊕ Flag)
  | "json" => some (.inl .json)
  | "base" => some (.inl .base)
  | "strict" => some (.inr .strict)
  | "verbose" => some (.inr .verbose)
  | "version" => some (.inr (.ask .version))
  | "help" => some (.inr (.ask .help))
  | _ => none

def shortOption? : Char → Option (ValueOption ⊕ Flag)
  | 'j' => some (.inl .json)
  | 'b' => some (.inl .base)
  | 'v' => some (.inr .verbose)
  | 'V' => some (.inr (.ask .version))
  | 'h' => some (.inr (.ask .help))
  | _ => none

/-- The text behind two dashes: a name, and a value if a `=` follows. -/
def longArgument (settings : Settings) (text : List Char) : Option Progress :=
  let name := String.ofList (text.takeWhile (· != '='))
  match longOption? name, text.dropWhile (· != '=') with
  | none, _ => none
  | some (.inl option), [] => some (.awaiting option settings)
  | some (.inl option), _ :: value =>
      (settings.setOption option (String.ofList value)).map .settings
  | some (.inr flag), [] => settings.raise flag
  | some (.inr _), _ :: _ => none

/-- The letters behind one dash. The rest behind an option is its value. -/
def shortArguments (settings : Settings) : List Char → Option Progress
  | [] => some (.settings settings)
  | letter :: rest =>
      match shortOption? letter, rest with
      | none, _ => none
      | some (.inl option), [] => some (.awaiting option settings)
      | some (.inl option), '=' :: value =>
          (settings.setOption option (String.ofList value)).map .settings
      | some (.inl option), value =>
          (settings.setOption option (String.ofList value)).map .settings
      | some (.inr flag), rest =>
          match settings.raise flag with
          | some (.settings raised) => shortArguments raised rest
          | other => other

/-- Whether an argument can be a value: it starts with no dash, or is one. -/
def isValue (argument : String) : Bool :=
  argument.toList.head? != some '-' || argument == "-"

def inputsOnly (settings : Settings) : List String → Option Request
  | [] => some (.run settings)
  | argument :: rest => (settings.setInput argument).bind (inputsOnly · rest)

def parseFrom (settings : Settings) : List String → Option Request
  | [] => some (.run settings)
  | argument :: rest =>
      if isValue argument then (settings.setInput argument).bind (parseFrom · rest)
      else if argument = "--" then inputsOnly settings rest
      else
        let progress := match argument.toList with
          | '-' :: '-' :: text => longArgument settings text
          | text => shortArguments settings (text.drop 1)
        match progress, rest with
        | none, _ => none
        | some (.asked question), _ => some (.ask question)
        | some (.settings changed), rest => parseFrom changed rest
        | some (.awaiting _ _), [] => none
        | some (.awaiting option changed), value :: others =>
            if isValue value then (changed.setOption option value).bind (parseFrom · others)
            else none

def parse (arguments : List String) : Option Request := parseFrom Settings.none arguments

end RomLayout.Command
