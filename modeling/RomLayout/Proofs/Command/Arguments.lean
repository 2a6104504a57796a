import RomLayout.Command.Arguments

set_option autoImplicit false

/-!
The arguments read one by one.

A lone `--` is the only argument that changes how those behind it are read. Without it,
reading a list in two parts is reading the second part from where the first one leads. While
arguments are read, nothing looks at whether the run is to be strict, except for the flag
itself. So the flag does the same wherever it stands.
-/

namespace RomLayout.Command

namespace Settings

/-- What an argument does that is no lone `--`. -/
def read (settings : Settings) (argument : String) : Option Progress :=
  if isValue argument then (settings.setInput argument).map .settings
  else match argument.toList with
    | '-' :: '-' :: text => longArgument settings text
    | text => shortArguments settings (text.drop 1)

def withStrict (settings : Settings) (isStrict : Bool) : Settings := { settings with isStrict }

end Settings

namespace Progress

/-- One argument further. -/
def next? : Progress → String → Option Progress
  | .settings current, argument => current.read argument
  | .asked question, _ => some (.asked question)
  | .awaiting option current, value =>
      if isValue value then (current.setOption option value).map .settings else none

/-- Reading the arguments that are left. -/
def readOn : Progress → List String → Option Request
  | .settings current, arguments => parseFrom current arguments
  | .asked question, _ => some (.ask question)
  | .awaiting _ _, [] => none
  | .awaiting option current, value :: others =>
      if isValue value then (current.setOption option value).bind (parseFrom · others) else none

def withStrict (isStrict : Bool) : Progress → Progress
  | .settings current => .settings (current.withStrict isStrict)
  | .asked question => .asked question
  | .awaiting option current => .awaiting option (current.withStrict isStrict)

end Progress

def Request.withStrict (isStrict : Bool) : Request → Request
  | .run settings => .run (settings.withStrict isStrict)
  | .ask question => .ask question

/-- The last argument is an option whose value is still to come. -/
def AwaitsValue (arguments : List String) : Prop :=
  ∃ option settings,
    arguments.foldlM Progress.next? (.settings .none) = some (.awaiting option settings)

section Reading

variable {settings : Settings} {progress : Progress} {argument : String}
  {front rest arguments : List String}

theorem parseFrom_cons (notSeparator : argument ≠ "--") :
    parseFrom settings (argument :: rest) = (settings.read argument).bind (·.readOn rest) := by
  rw [parseFrom, if_neg notSeparator]
  by_cases value : isValue argument
  · rw [if_pos value, Settings.read, if_pos value, Option.bind_map]
    rfl
  · rw [if_neg value]
    dsimp only
    split <;> rename_i outcome <;>
      rw [show settings.read argument = _ from (if_neg value).trans outcome] <;> rfl

theorem parseFrom_separator : parseFrom settings ("--" :: rest) = inputsOnly settings rest := by
  rw [parseFrom, if_neg (by decide), if_pos rfl]

theorem readOn_cons (notSeparator : argument ≠ "--") :
    progress.readOn (argument :: rest) = (progress.next? argument).bind (·.readOn rest) := by
  cases progress with
  | settings settings => exact parseFrom_cons notSeparator
  | asked question => rfl
  | awaiting option settings =>
      rw [Progress.readOn, Progress.next?]
      split
      · rw [Option.bind_map]
        rfl
      · rfl

theorem readOn_append (noSeparator : "--" ∉ front) :
    progress.readOn (front ++ rest) =
      (front.foldlM Progress.next? progress).bind (·.readOn rest) := by
  induction front generalizing progress with
  | nil => rfl
  | cons argument others inductionHypothesis =>
      rw [List.mem_cons, not_or] at noSeparator
      rw [List.cons_append, readOn_cons (Ne.symm noSeparator.1), List.foldlM_cons,
        Option.bind_eq_bind, Option.bind_assoc]
      apply Option.bind_congr
      intro reached _
      exact inductionHypothesis noSeparator.2

end Reading

section Strict

variable {settings : Settings} {progress : Progress} {isStrict : Bool} {argument : String}
  {arguments : List String}

@[simp] theorem Settings.input_withStrict : (settings.withStrict isStrict).input = settings.input :=
  rfl

@[simp] theorem Settings.json_withStrict : (settings.withStrict isStrict).json = settings.json :=
  rfl

@[simp] theorem Settings.base_withStrict : (settings.withStrict isStrict).base = settings.base :=
  rfl

@[simp] theorem Settings.isVerbose_withStrict :
    (settings.withStrict isStrict).isVerbose = settings.isVerbose :=
  rfl

theorem Settings.withStrict_self : settings.withStrict settings.isStrict = settings := rfl

theorem setInput_withStrict (text : String) :
    (settings.withStrict isStrict).setInput text =
      (settings.setInput text).map (·.withStrict isStrict) := by
  unfold Settings.setInput
  rw [Settings.input_withStrict]
  split
  · rfl
  · rw [Option.map_map]
    rfl

theorem setOption_withStrict (option : ValueOption) (value : String) :
    (settings.withStrict isStrict).setOption option value =
      (settings.setOption option value).map (·.withStrict isStrict) := by
  unfold Settings.setOption
  cases option with
  | json =>
      dsimp only
      rw [Settings.json_withStrict]
      split <;> rfl
  | base =>
      dsimp only
      rw [Settings.base_withStrict]
      split
      · rfl
      · rw [Option.map_map]
        rfl

theorem raise_withStrict {flag : Flag} (other : flag ≠ .strict) :
    (settings.withStrict isStrict).raise flag =
      (settings.raise flag).map (Progress.withStrict isStrict) := by
  cases flag with
  | strict => exact absurd rfl other
  | verbose =>
      unfold Settings.raise
      dsimp only
      rw [Settings.isVerbose_withStrict]
      split <;> rfl
  | ask question => rfl

theorem longOption?_eq_strict {name : String} (found : longOption? name = some (.inr .strict)) :
    name = "strict" := by
  unfold longOption? at found
  split at found <;> first | rfl | cases found

theorem shortOption?_ne_strict {letter : Char} {flag : Flag}
    (found : shortOption? letter = some (.inr flag)) : flag ≠ .strict := by
  rintro rfl
  unfold shortOption? at found
  split at found <;> cases found

/-- An option that is given together with its value. -/
theorem map_settings_setOption_withStrict (option : ValueOption) (value : String) :
    ((settings.withStrict isStrict).setOption option value).map Progress.settings =
      ((settings.setOption option value).map Progress.settings).map
        (Progress.withStrict isStrict) := by
  rw [setOption_withStrict, Option.map_map, Option.map_map]
  rfl

theorem longArgument_withStrict {text : List Char} (other : text ≠ "strict".toList) :
    longArgument (settings.withStrict isStrict) text =
      (longArgument settings text).map (Progress.withStrict isStrict) := by
  unfold longArgument
  dsimp only
  split
  · rfl
  · rfl
  · exact map_settings_setOption_withStrict _ _
  · rename_i flag found noValue
    apply raise_withStrict
    rintro rfl
    have named := congrArg String.toList (longOption?_eq_strict found)
    rw [String.toList_ofList] at named
    apply other
    have whole := @List.takeWhile_append_dropWhile _ (· != '=') text
    rwa [noValue, List.append_nil, named, eq_comm] at whole
  · rfl

theorem shortArguments_withStrict (letters : List Char) :
    shortArguments (settings.withStrict isStrict) letters =
      (shortArguments settings letters).map (Progress.withStrict isStrict) := by
  induction letters generalizing settings with
  | nil => rfl
  | cons letter rest inductionHypothesis =>
      unfold shortArguments
      split
      · rfl
      · rfl
      · exact map_settings_setOption_withStrict _ _
      · exact map_settings_setOption_withStrict _ _
      · rename_i flag found
        rw [raise_withStrict (shortOption?_ne_strict found)]
        rcases settings.raise flag with _ | ⟨raised⟩ | _ | _
        · rfl
        · exact inductionHypothesis
        · rfl
        · rfl

theorem read_withStrict (other : argument ≠ "--strict") :
    (settings.withStrict isStrict).read argument =
      (settings.read argument).map (Progress.withStrict isStrict) := by
  unfold Settings.read
  split
  · rw [setInput_withStrict, Option.map_map, Option.map_map]
    rfl
  · split
    · rename_i text characters
      apply longArgument_withStrict
      rintro rfl
      exact other (String.toList_inj.mp characters)
    · exact shortArguments_withStrict _

theorem next?_withStrict (other : argument ≠ "--strict") :
    (progress.withStrict isStrict).next? argument =
      (progress.next? argument).map (Progress.withStrict isStrict) := by
  cases progress with
  | settings settings => exact read_withStrict other
  | asked question => rfl
  | awaiting option settings =>
      simp only [Progress.withStrict, Progress.next?]
      split
      · exact map_settings_setOption_withStrict _ _
      · rfl

theorem inputsOnly_withStrict :
    inputsOnly (settings.withStrict isStrict) arguments =
      (inputsOnly settings arguments).map (Request.withStrict isStrict) := by
  induction arguments generalizing settings with
  | nil => rfl
  | cons argument rest inductionHypothesis =>
      rw [inputsOnly, inputsOnly, setInput_withStrict]
      cases settings.setInput argument with
      | none => rfl
      | some changed => exact inductionHypothesis

theorem foldlM_next?_withStrict (noStrict : "--strict" ∉ arguments) :
    arguments.foldlM Progress.next? (progress.withStrict isStrict) =
      (arguments.foldlM Progress.next? progress).map (Progress.withStrict isStrict) := by
  induction arguments generalizing progress with
  | nil => rfl
  | cons argument rest inductionHypothesis =>
      rw [List.mem_cons, not_or] at noStrict
      rw [List.foldlM_cons, List.foldlM_cons, next?_withStrict (Ne.symm noStrict.1)]
      cases progress.next? argument with
      | none => rfl
      | some reached => exact inductionHypothesis noStrict.2

/-- Whether the run is to be strict comes out as it goes in. -/
theorem readOn_withStrict (noStrict : "--strict" ∉ arguments) :
    (progress.withStrict isStrict).readOn arguments =
      (progress.readOn arguments).map (Request.withStrict isStrict) := by
  induction arguments generalizing progress with
  | nil => cases progress <;> rfl
  | cons argument rest inductionHypothesis =>
      rw [List.mem_cons, not_or] at noStrict
      by_cases separator : argument = "--"
      · -- What stands behind it is input, whatever it looks like.
        subst separator
        cases progress with
        | settings settings =>
            change parseFrom _ _ = (parseFrom _ _).map _
            rw [parseFrom_separator, parseFrom_separator]
            exact inputsOnly_withStrict
        | asked question => rfl
        | awaiting option settings => rfl
      · rw [readOn_cons separator, readOn_cons separator,
          next?_withStrict (Ne.symm noStrict.1)]
        cases progress.next? argument with
        | none => rfl
        | some reached => exact inductionHypothesis noStrict.2

theorem isStrict_of_parse {settings : Settings} (noStrict : "--strict" ∉ arguments)
    (accepted : parse arguments = some (.run settings)) : settings.isStrict = false := by
  have same := @readOn_withStrict (.settings .none) false arguments noStrict
  change parse arguments = (parse arguments).map _ at same
  rw [accepted] at same
  cases settings
  cases same
  rfl

theorem read_strict (notStrict : settings.isStrict = false) :
    settings.read "--strict" = some (.settings (settings.withStrict true)) := by
  simp [Settings.read, isValue, longArgument, longOption?, Settings.raise, notStrict,
    Settings.withStrict]

/-- The flag makes the run strict and changes nothing else. It can stand anywhere but
between an option and its value and behind a lone `--`. -/
theorem parse_strict {front behind : List String} (noStrict : "--strict" ∉ front ++ behind)
    (noSeparator : "--" ∉ front) (complete : ¬AwaitsValue front) :
    parse (front ++ "--strict" :: behind) =
      (parse (front ++ behind)).map (Request.withStrict true) := by
  rw [List.mem_append, not_or] at noStrict
  change Progress.readOn (.settings .none) _ = (Progress.readOn (.settings .none) _).map _
  rw [readOn_append noSeparator, readOn_append noSeparator]
  cases reached : front.foldlM Progress.next? (.settings .none) with
  | none => rfl
  | some progress =>
      cases progress with
      | asked question => rfl
      | awaiting option settings => exact absurd ⟨option, settings, reached⟩ complete
      | settings settings =>
          have same := @foldlM_next?_withStrict (.settings .none) false front noStrict.1
          change front.foldlM Progress.next? (.settings .none) = _ at same
          rw [reached] at same
          have notStrict : settings.isStrict = false := by
            cases settings
            cases same
            rfl
          change (Progress.settings settings).readOn _ =
            ((Progress.settings settings).readOn behind).map _
          rw [← readOn_withStrict noStrict.2, readOn_cons (by decide), Progress.next?,
            read_strict notStrict]
          rfl

end Strict

end RomLayout.Command
