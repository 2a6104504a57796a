import RomLayout.Proofs.Command.Arguments
import RomLayout.Proofs.Command.Delivery
import RomLayout.Proofs.Layout.Resolution
import RomLayout.Proofs.Overlap

set_option autoImplicit false

/-!
A strict run is the run without the flag, unless it stops at two sections that share a byte.

The flag is looked at once, when the layout has been resolved and before anything of it is
shown. If no two sections collide, nothing behind that point can tell the two runs apart.
If two do, the strict run ends there. No stage in front of the check has an error that could
be taken for the one of the check, so what is printed tells which of the two has happened.
-/

namespace RomLayout.Command

variable {settings : Settings} {files : Lookup} {layout resolved : Layout}
  {description : Description} {total : UInt64} {error : Error} {conflict : Conflict}

namespace Settings

/-- The lines of progress in front of everything that is found out about the layout. -/
def announced (settings : Settings) : String :=
  settings.progress (line "1. Read Layout" ++ line ("  < " ++ settings.inputPath.text))
    ++ settings.progress (line "2. Resolve Offsets")

/-- The layout loads, builds and resolves, and two of its sections share a byte of a bank. -/
def Collides (settings : Settings) (files : Lookup) : Prop :=
  ∃ description layout total resolved,
    Description.load files settings.inputPath = .ok description ∧
    description.build files settings.directory settings.basePath = .ok layout ∧
    layout.resolve = (.ok total, resolved) ∧
    ∃ earlier later, Collision resolved.sections earlier later

end Settings

/-- The run ends with the message of two sections that share a byte, printed behind the first
lines of progress. No file is another one. -/
def ReportsOverlap (help : String) (arguments : List String) (files : FileSystem) : Prop :=
  ∃ settings conflict, parse arguments = some (.run settings) ∧
    run help arguments files = (.failure settings.announced (.sectionOverlap conflict), files)

section Stages

theorem readLayout_withStrict (isStrict : Bool) :
    readLayout (settings.withStrict isStrict) files = readLayout settings files :=
  rfl

/-- A layout that resolves is checked as its sections are: each has a history. -/
theorem checkOverlaps_cases_of_resolve (isRead : readLayout settings files = .ok layout)
    (resolves : layout.resolve = (.ok total, resolved)) :
    (resolved.checkOverlaps = .ok () ∧ ¬settings.Collides files) ∨
    ((∃ conflict, resolved.checkOverlaps = .error (.sectionOverlap conflict)) ∧
      settings.Collides files) := by
  obtain ⟨description, loaded, built⟩ := readLayout_ok_iff.mp isRead
  have settled := Layout.settled_of_resolve (Description.reachable_of_build built) resolves
  have reachable : ∀ current ∈ resolved.sections, Reachable current := by
    intro current member
    obtain ⟨size, settled⟩ := settled current member
    exact settled.reachable
  rcases checkOverlaps_cases reachable with
    ⟨accepted, apart⟩ | ⟨earlier, later, other, current, span, -, -, first, -, refused⟩
  · refine .inl ⟨accepted, ?_⟩
    rintro ⟨_, _, _, _, loadedToo, builtToo, resolvesToo, earlier, later, collision⟩
    cases loaded.symm.trans loadedToo
    cases built.symm.trans builtToo
    cases resolves.symm.trans resolvesToo
    exact apart earlier later collision
  · exact .inr ⟨⟨_, refused⟩, description, layout, total, resolved, loaded, built, resolves,
      earlier, later, first.collision⟩

theorem prepare_of_not_collides (apart : ¬settings.Collides files) :
    prepare (settings.withStrict true) files = prepare (settings.withStrict false) files := by
  unfold prepare
  rw [readLayout_withStrict, readLayout_withStrict]
  cases isRead : readLayout settings files with
  | error error => rfl
  | ok layout =>
      -- The two runs part at the check alone, and here it accepts.
      have same : resolveLayout (settings.withStrict true) layout =
          resolveLayout (settings.withStrict false) layout := by
        unfold resolveLayout
        rcases resolves : layout.resolve with ⟨error | total, resolved⟩
        · rfl
        · rcases checkOverlaps_cases_of_resolve isRead resolves with
            ⟨accepted, -⟩ | ⟨-, collides⟩
          · change resolved.checkOverlaps.map _ = _
            rw [accepted]
            rfl
          · exact absurd collides apart
      dsimp only
      rw [same]
      rfl

theorem prepare_of_collides (collides : settings.Collides files) :
    ∃ conflict, prepare (settings.withStrict true) files =
      ⟨settings.announced, .error (.sectionOverlap conflict)⟩ := by
  obtain ⟨description, layout, total, resolved, loaded, built, resolves, -⟩ := id collides
  have isRead := readLayout_ok_iff.mpr ⟨description, loaded, built⟩
  rcases checkOverlaps_cases_of_resolve isRead resolves with
    ⟨-, apart⟩ | ⟨⟨conflict, refused⟩, -⟩
  · exact absurd collides apart
  · have stops : resolveLayout (settings.withStrict true) layout =
        .error (.sectionOverlap conflict) := by
      unfold resolveLayout
      rw [resolves]
      change resolved.checkOverlaps.map _ = _
      rw [refused]
      rfl
    refine ⟨conflict, ?_⟩
    unfold prepare
    rw [readLayout_withStrict, isRead]
    dsimp only
    rw [stops]
    rfl

end Stages

section Errors

theorem load_ne_sectionOverlap {path : Path} :
    Description.load files path ≠ .error (.sectionOverlap conflict) := by
  unfold Description.load
  split
  · simp
  · simp
  · split
    · unfold Description.parse
      split <;> simp
    · simp

theorem readLayout_ne_sectionOverlap :
    readLayout settings files ≠ .error (.sectionOverlap conflict) := by
  intro failed
  unfold readLayout at failed
  split at failed
  · rename_i unloaded
    cases failed
    exact load_ne_sectionOverlap unloaded
  · rename_i description loaded
    have outcome := @Item.Outcome.build files settings.basePath description settings.directory
    rw [failed] at outcome
    obtain ⟨_, _, _, -, -, refused⟩ := outcome
    cases refused.location?_eq

theorem resolve_ne_sectionOverlap (sound : ∀ current ∈ layout.sections, current.binding.Sound) :
    layout.resolve.1 ≠ .error (.sectionOverlap conflict) := by
  intro failed
  rw [Layout.resolve_eq] at failed
  rcases Layout.resolveSections_cases layout.sections with
    ⟨_, -, passes⟩ | ⟨before, failing, behind, error, split, -, stops, outcome⟩
  · rw [passes] at failed
    cases failed
  · rw [outcome] at failed
    cases failed
    have member : failing ∈ layout.sections := by simp [split]
    obtain ⟨_, _, _, -, -, overflow⟩ :=
      Section.exists_overflows_of_resolve (sound failing member) stops
    cases overflow

end Errors

section Printing

/-- The message of an overlap is the only one that begins with this letter. -/
theorem exists_of_head?_message {behind : List Char}
    (initial : (error.message.toList ++ behind).head? = some 'A') :
    ∃ conflict, error = .sectionOverlap conflict := by
  unfold Error.message at initial
  cases error with
  | sectionOverlap conflict => exact ⟨conflict, rfl⟩
  | invalidBank location fault =>
      unfold BankFault.message at initial
      cases fault <;> simp at initial
  | illegalContent location violation =>
      unfold Violation.message at initial
      cases violation <;> simp at initial
  | _ => simp at initial

theorem head?_message_sectionOverlap (conflict : Conflict) (behind : List Char) :
    ((Error.sectionOverlap conflict).message.toList ++ behind).head? = some 'A' := by
  unfold Error.message
  simp

theorem exists_of_diagnostic_eq
    (same : diagnostic error = diagnostic (.sectionOverlap conflict)) :
    ∃ conflict, error = .sectionOverlap conflict := by
  have letters := congrArg String.toList same
  unfold diagnostic at letters
  simp only [line, String.toList_append, List.append_assoc, List.append_cancel_left_eq] at letters
  apply exists_of_head?_message
  rw [letters]
  exact head?_message_sectionOverlap conflict _

theorem head?_diagnostic : (diagnostic error).toList.head? = some '\x1b' := by
  unfold diagnostic
  simp [line, errorMark, code]

/-- A diagnostic has nothing in front of its colour. -/
theorem ne_diagnostic {text : String} (letter : Char)
    (begins : text.toList.head? = some letter) (other : letter ≠ '\x1b') :
    text ≠ diagnostic error := by
  rintro rfl
  rw [head?_diagnostic, Option.some.injEq] at begins
  exact other begins.symm

/-- Neither does one take the place of the sections, or of the line behind them. -/
theorem sections_ne_diagnostic (sections : List Section) (behind : String) :
    settings.progress (String.join (sections.map sectionLine)) ++
      (line "3. Write Dump" ++ behind) ≠ diagnostic error := by
  unfold Settings.progress
  split
  · exact ne_diagnostic '3' (by simp [line]) (by decide)
  · cases sections with
    | nil => exact ne_diagnostic '3' (by simp [line]) (by decide)
    | cons current rest => exact ne_diagnostic ' ' (by simp [line, sectionLine]) (by decide)

theorem append_left_cancel {front left right : String} (same : front ++ left = front ++ right) :
    left = right := by
  have letters := congrArg String.toList same
  rw [String.toList_append, String.toList_append, List.append_cancel_left_eq] at letters
  exact String.toList_inj.mp letters

end Printing

section Lenient

theorem runSettings_of_error {files : FileSystem} {output : String}
    (prepared : prepare settings files.find = ⟨output, .error error⟩) :
    runSettings settings files = (.failure output error, files) := by
  rw [runSettings, prepared]

theorem success_ne_failure {output printed : String} :
    Ending.success output ≠ .failure printed error := by
  intro same
  have codes : successCode = failureCode := congrArg Ending.exitCode same
  cases codes

theorem runSettings_ne_of_unread {files : FileSystem}
    (unread : readLayout settings files.find = .error error) :
    (runSettings settings files).1 ≠ .failure settings.announced (.sectionOverlap conflict) := by
  have prepared : prepare settings files.find =
      ⟨settings.progress
        (line "1. Read Layout" ++ line ("  < " ++ settings.inputPath.text)), .error error⟩ := by
    simp only [prepare, unread]
  rw [runSettings_of_error prepared]
  intro same
  have printed := congrArg Ending.output same
  change _ ++ diagnostic _ = settings.announced ++ diagnostic _ at printed
  rw [Settings.announced, String.append_assoc] at printed
  have behind := append_left_cancel printed
  by_cases isQuiet : settings.isQuiet
  · -- A quiet run prints the diagnostic alone, so its message has to tell.
    rw [Settings.progress_of_isQuiet isQuiet, String.empty_append] at behind
    obtain ⟨other, rfl⟩ := exists_of_diagnostic_eq behind
    exact readLayout_ne_sectionOverlap unread
  · rw [Settings.progress, if_neg isQuiet, eq_comm] at behind
    exact ne_diagnostic '2' (by simp [line]) (by decide) behind

theorem runSettings_ne_of_unresolved {files : FileSystem}
    (isRead : readLayout settings files.find = .ok layout)
    (unresolved : layout.resolve = (.error error, resolved)) :
    (runSettings settings files).1 ≠ .failure settings.announced (.sectionOverlap conflict) := by
  have prepared : prepare settings files.find = ⟨settings.announced, .error error⟩ := by
    simp only [prepare, isRead, resolveLayout, unresolved, Settings.announced]
  rw [runSettings_of_error prepared]
  intro same
  obtain ⟨other, rfl⟩ :=
    exists_of_diagnostic_eq (append_left_cancel (congrArg Ending.output same))
  obtain ⟨description, -, built⟩ := readLayout_ok_iff.mp isRead
  apply resolve_ne_sectionOverlap _ (congrArg Prod.fst unresolved)
  intro current member
  exact (Description.reachable_of_build built current member).sound

theorem runSettings_ne_of_worksOut {files : FileSystem}
    (worksOut : settings.WorksOut files.find description layout total resolved) :
    (runSettings settings files).1 ≠ .failure settings.announced (.sectionOverlap conflict) := by
  rw [runSettings, prepare_of_worksOut worksOut]
  cases json : settings.json with
  | none =>
      rw [deliver, json]
      exact success_ne_failure
  | some target =>
      by_cases toStdout : target = "stdout"
      · subst toStdout
        rw [deliver_quiet (Settings.isQuiet_iff.mpr json) json]
        exact success_ne_failure
      · rw [deliver_file json toStdout]
        dsimp only
        split
        · intro same
          have printed := congrArg Ending.output same
          change settings.announced ++ _ ++ _ ++ _ = settings.announced ++ _ at printed
          rw [String.append_assoc, String.append_assoc, String.append_assoc] at printed
          exact sections_ne_diagnostic _ _ (append_left_cancel printed)
        · exact success_ne_failure

/-- Without the flag nothing is ever said about an overlap. -/
theorem runSettings_ne_overlap (lenient : settings.isStrict = false) (files : FileSystem) :
    (runSettings settings files).1 ≠ .failure settings.announced (.sectionOverlap conflict) := by
  cases isRead : readLayout settings files.find with
  | error error => exact runSettings_ne_of_unread isRead
  | ok layout =>
      rcases resolves : layout.resolve with ⟨error | total, resolved⟩
      · exact runSettings_ne_of_unresolved isRead resolves
      · obtain ⟨description, loaded, built⟩ := readLayout_ok_iff.mp isRead
        apply runSettings_ne_of_worksOut ⟨loaded, built, resolves, _⟩
        rw [lenient]
        rintro ⟨⟩

end Lenient

section Flag

variable {help : String} {arguments strict : List String} {files : FileSystem}

theorem not_reportsOverlap (noStrict : "--strict" ∉ arguments) :
    ¬ReportsOverlap help arguments files := by
  rintro ⟨settings, conflict, accepted, ran⟩
  rw [run, accepted] at ran
  exact runSettings_ne_overlap (isStrict_of_parse noStrict accepted) files
    (congrArg Prod.fst ran)

theorem reportsOverlap_of_collides
    (parsed : parse strict = (parse arguments).map (Request.withStrict true))
    (accepted : parse arguments = some (.run settings)) (collides : settings.Collides files.find) :
    ReportsOverlap help strict files := by
  obtain ⟨conflict, prepared⟩ := prepare_of_collides collides
  rw [accepted] at parsed
  refine ⟨settings.withStrict true, conflict, parsed, ?_⟩
  rw [run, parsed]
  exact runSettings_of_error prepared

theorem run_eq_of_not_collides (noStrict : "--strict" ∉ arguments)
    (parsed : parse strict = (parse arguments).map (Request.withStrict true))
    (apart : ∀ settings, parse arguments = some (.run settings) →
      ¬settings.Collides files.find) :
    run help strict files = run help arguments files := by
  rw [run, run, parsed]
  cases accepted : parse arguments with
  | none => rfl
  | some request =>
      cases request with
      | ask question => rfl
      | run settings =>
          have lenient : settings.withStrict false = settings := by
            rw [← isStrict_of_parse noStrict accepted, Settings.withStrict_self]
          change runSettings (settings.withStrict true) files = runSettings settings files
          unfold runSettings
          rw [prepare_of_not_collides (apart settings accepted), lenient]

theorem reportsOverlap_of_run_eq
    (parsed : parse strict = (parse arguments).map (Request.withStrict true))
    (same : run help strict files = run help arguments files)
    (reports : ReportsOverlap help strict files) : ReportsOverlap help arguments files := by
  obtain ⟨strictSettings, conflict, accepted, ran⟩ := reports
  rw [parsed] at accepted
  obtain ⟨⟨settings⟩ | _, found, isStrict⟩ := Option.map_eq_some_iff.mp accepted
  · cases isStrict
    exact ⟨settings, conflict, found, same.symm.trans ran⟩
  · cases isStrict

end Flag

/-- The flag can be put anywhere but between an option and its value and behind a lone `--`;
in front of all arguments it always can. It makes the run stop, and say why, exactly if two
sections collide. Otherwise the run is the one without the flag, which never says such a
thing. -/
theorem strict_only_filters {front behind : List String}
    (noStrict : "--strict" ∉ front ++ behind) (noSeparator : "--" ∉ front)
    (complete : ¬AwaitsValue front) (help : String) (files : FileSystem) :
    (run help (front ++ "--strict" :: behind) files = run help (front ++ behind) files ∨
      ReportsOverlap help (front ++ "--strict" :: behind) files) ∧
    (ReportsOverlap help (front ++ "--strict" :: behind) files ↔
      ∃ settings, parse (front ++ behind) = some (.run settings) ∧
        settings.Collides files.find) ∧
    ¬ReportsOverlap help (front ++ behind) files := by
  have parsed := parse_strict noStrict noSeparator complete
  have never := @not_reportsOverlap help _ files noStrict
  by_cases collides : ∃ settings, parse (front ++ behind) = some (.run settings) ∧
      settings.Collides files.find
  · obtain ⟨settings, accepted, collision⟩ := id collides
    have reports : ReportsOverlap help (front ++ "--strict" :: behind) files :=
      reportsOverlap_of_collides parsed accepted collision
    exact ⟨.inr reports, ⟨fun _ => collides, fun _ => reports⟩, never⟩
  · have same : run help (front ++ "--strict" :: behind) files =
        run help (front ++ behind) files := by
      apply run_eq_of_not_collides noStrict parsed
      intro settings accepted collision
      exact collides ⟨settings, accepted, collision⟩
    refine ⟨.inl same, ⟨?_, fun found => absurd found collides⟩, never⟩
    intro reports
    exact absurd (reportsOverlap_of_run_eq parsed same reports) never

/-- A directory with a description of two variables in one place. -/
def twoVariables : FileSystem where
  nodes :=
    [(⟨.working 0, ["layout.yaml".toList]⟩,
      .file ("files:\n- name: a\n  sections:\n".toUTF8.toList
        ++ "    A:\n      region: HRAM\n      entries:\n      - variable: 2\n".toUTF8.toList
        ++ "    B:\n      region: HRAM\n      entries:\n      - variable: 1\n".toUTF8.toList))]
  directorySize _ := 0

def twoVariablesDescription : Description where
  files :=
    [{ name := "a"
       sections :=
        [("A", ⟨"HRAM", none, none, [.slot 2]⟩), ("B", ⟨"HRAM", none, none, [.slot 1]⟩)] }]

theorem load_twoVariables :
    Description.load twoVariables.find (Path.ofString "layout.yaml") =
      .ok twoVariablesDescription := by
  decide +kernel

/-- With the flag, and only with it, the run stops before the snapshots are printed. -/
theorem strict_only_filters_twoVariables :
    "--strict" ∉ ["-v"] ++ ["-j", "stdout"] ∧ "--" ∉ ["-v"] ∧ ¬AwaitsValue ["-v"] ∧
      ReportsOverlap "" ["-v", "--strict", "-j", "stdout"] twoVariables ∧
      ¬ReportsOverlap "" ["-v", "-j", "stdout"] twoVariables := by
  have noStrict : "--strict" ∉ ["-v"] ++ ["-j", "stdout"] := by decide
  have noSeparator : "--" ∉ ["-v"] := by decide
  have complete : ¬AwaitsValue ["-v"] := by
    rintro ⟨option, settings, reached⟩
    simp [Progress.next?, Settings.read, isValue, shortArguments, shortOption?, Settings.raise,
      Settings.none] at reached
  have accepted : parse ["-v", "-j", "stdout"] =
      some (.run ⟨none, some "stdout", none, false, true⟩) := by
    simp [parse, parseFrom, isValue, shortArguments, shortOption?, Settings.setOption,
      Settings.raise, Settings.none]
  have collides : Settings.Collides ⟨none, some "stdout", none, false, true⟩ twoVariables.find := by
    refine ⟨_, _, _, _, load_twoVariables, rfl, rfl, 0, 1, by decide, _, _, rfl, rfl, rfl, rfl,
      0xFF80, ?_, ?_⟩
    · change 0xFF80 ∈ Set.Ico 0xFF80 0xFF82
      decide
    · change 0xFF80 ∈ Set.Ico 0xFF80 0xFF81
      decide
  obtain ⟨-, reports, never⟩ := strict_only_filters noStrict noSeparator complete "" twoVariables
  exact ⟨noStrict, noSeparator, complete, reports.mpr ⟨_, accepted, collides⟩, never⟩

end RomLayout.Command
