import RomLayout.Include
import RomLayout.Proofs.FileSystem
import RomLayout.Proofs.Path

set_option autoImplicit false

/-!
Where rooted includes lead.

A rooted include makes the steps of its text behind those of the base directory, the steps up
included. So it stays under the base exactly if the text alone would never climb above the
root. Separators, in front or repeated, and `.` make no difference to that.
-/

namespace RomLayout

namespace Component

/-- On which level a walk ends that begins `level` levels below some directory, and `none` if
it ever leaves this directory. -/
def levelAfter? : Nat → List Component → Option Nat
  | level, [] => some level
  | level, .name _ :: rest => levelAfter? (level + 1) rest
  | level + 1, .up :: rest => levelAfter? level rest
  | 0, .up :: _ => none
  | _, .root :: _ => none

/-- The steps never leave the directory that they start from. -/
def StayInside (steps : List Component) : Prop := (levelAfter? 0 steps).isSome

instance (steps : List Component) : Decidable (StayInside steps) :=
  inferInstanceAs (Decidable ((levelAfter? 0 steps).isSome = true))

theorem isSome_levelAfter?_of_names {steps : List Component} (level : Nat)
    (notRoot : .root ∉ steps) (notUp : .up ∉ steps) : (levelAfter? level steps).isSome := by
  induction steps generalizing level with
  | nil => rfl
  | cons step rest inductionHypothesis =>
      simp only [List.mem_cons, not_or] at notRoot notUp
      cases step with
      | root => exact absurd rfl notRoot.1
      | up => exact absurd rfl notUp.1
      | name name => exact inductionHypothesis (level + 1) notRoot.2 notUp.2

end Component

namespace Path

/-- Behind the steps of the directory, those of the path never leave it. -/
def Confines (directory path : Path) : Prop :=
  ∃ steps, path.components = directory.components ++ steps ∧ Component.StayInside steps

theorem confines_iff {directory path : Path} {steps : List Component}
    (split : path.components = directory.components ++ steps) :
    directory.Confines path ↔ Component.StayInside steps := by
  constructor
  · rintro ⟨others, otherSplit, stay⟩
    rwa [List.append_cancel_left (split.symm.trans otherSplit)]
  · intro stay
    exact ⟨steps, split, stay⟩

theorem root_not_mem_stepsOf (characters : List Char) : .root ∉ stepsOf characters := by
  simp only [stepsOf, List.mem_filterMap, not_exists, not_and]
  intro piece _ found
  unfold component? at found
  split at found
  · cases found
  · split at found <;> cases found

end Path

namespace FileSystem

theorem placeOf_eq_foldl (path : Path) :
    placeOf path = path.components.foldl follow ⟨.working 0, []⟩ :=
  rfl

theorem up_append_singleton (anchor : Anchor) (names : List Name) (last : Name) :
    Place.up ⟨anchor, names ++ [last]⟩ = ⟨anchor, names⟩ := by
  unfold Place.up
  split
  · rename_i empty
    simp at empty
  · rw [List.dropLast_concat]

/-- Steps that never leave a place lead to somewhere below it. -/
theorem exists_foldl_follow {anchor : Anchor} {names below : List Name} {steps : List Component}
    (stay : (Component.levelAfter? below.length steps).isSome) :
    ∃ reached, steps.foldl follow ⟨anchor, names ++ below⟩ = ⟨anchor, names ++ reached⟩ := by
  induction steps generalizing below with
  | nil => exact ⟨below, rfl⟩
  | cons step rest inductionHypothesis =>
      rw [List.foldl_cons]
      cases step with
      | root => cases stay
      | name name =>
          rw [follow, Place.child, List.append_assoc]
          apply inductionHypothesis
          rw [List.length_append]
          exact stay
      | up =>
          -- The level counts the names below the start, so a step up takes away one of these.
          rcases below.eq_nil_or_concat with rfl | ⟨front, last, rfl⟩
          · cases stay
          · rw [List.concat_eq_append] at stay ⊢
            rw [follow, ← List.append_assoc, up_append_singleton]
            apply inductionHypothesis
            rw [List.length_append] at stay
            exact stay

theorem exists_placeOf_of_confines {directory path : Path} (confines : directory.Confines path) :
    ∃ reached, placeOf path =
      ⟨(placeOf directory).anchor, (placeOf directory).names ++ reached⟩ := by
  obtain ⟨steps, split, stay⟩ := confines
  rw [placeOf_eq_foldl path, split, List.foldl_append, ← placeOf_eq_foldl]
  have below :=
    @exists_foldl_follow (placeOf directory).anchor (placeOf directory).names [] steps stay
  rwa [List.append_nil] at below

end FileSystem

namespace SourceFile

variable {source : SourceFile} {base text : Path}

/-- A rooted include makes the steps of its text behind those of the base. -/
theorem components_includePath_of_rooted (rooted : text.isAbsolute = true) :
    (source.includePath base text).components =
      base.components ++ Path.stepsOf text.characters := by
  have relative := Path.isAbsolute_dropWhile_separator text.characters
  rw [includePath, if_pos rooted, Path.components_join relative,
    Path.components_of_relative relative, Path.stepsOf_dropWhile_separator]

theorem tail_components_of_rooted (rooted : text.isAbsolute = true) :
    text.components.tail = Path.stepsOf text.characters := by
  rw [Path.components_eq, rooted]
  rfl

/-- A rooted include stays under the base exactly if its text, behind the root, never climbs
above where it starts; without steps up it always does. Then whatever place the path names, it
is the one of the base or below it. -/
theorem includePath_confined_iff {text : Path} (rooted : text.isAbsolute = true)
    (source : SourceFile) (base : Path) :
    (base.Confines (source.includePath base text) ↔
      Component.StayInside text.components.tail) ∧
    (.up ∉ text.components → base.Confines (source.includePath base text)) ∧
    (Component.StayInside text.components.tail →
      ∃ below, FileSystem.placeOf (source.includePath base text) =
        ⟨(FileSystem.placeOf base).anchor, (FileSystem.placeOf base).names ++ below⟩) := by
  have split := @components_includePath_of_rooted source base text rooted
  rw [← tail_components_of_rooted rooted] at split
  have confined := Path.confines_iff split
  refine ⟨confined, ?_, ?_⟩
  · intro noUp
    rw [confined, tail_components_of_rooted rooted]
    apply Component.isSome_levelAfter?_of_names 0 (Path.root_not_mem_stepsOf _)
    intro climbs
    rw [← tail_components_of_rooted rooted] at climbs
    exact noUp (List.mem_of_mem_tail climbs)
  · intro stay
    exact FileSystem.exists_placeOf_of_confines (confined.mpr stay)

/-- A source file with a directory of its own, which a rooted include does not look at. -/
def mainFile : SourceFile := ⟨"main.gbc", Path.ofString "src/main.gbc"⟩

/-- A text with repeated separators, a blank step and a step up that is made good again. -/
def detour : Path := Path.ofString "//gfx/.//../font.bin"

theorem includePath_confined_iff_detour :
    detour.isAbsolute = true ∧
      (Path.ofString "project").Confines (mainFile.includePath (Path.ofString "project") detour) ∧
      ∃ below, FileSystem.placeOf (mainFile.includePath (Path.ofString "project") detour) =
        ⟨.working 0, "project".toList :: below⟩ := by
  have rooted : detour.isAbsolute = true := by decide
  have stay : Component.StayInside detour.components.tail := by decide
  obtain ⟨confined, -, below⟩ :=
    includePath_confined_iff rooted mainFile (Path.ofString "project")
  exact ⟨rooted, confined.mpr stay, below stay⟩

/-- The separators in front are taken away, but a step up behind them is not. -/
theorem includePath_leaves_stepUp :
    (Path.ofString "/../secret.bin").isAbsolute = true ∧
      ¬(Path.ofString "project").Confines
        (mainFile.includePath (Path.ofString "project") (Path.ofString "/../secret.bin")) := by
  refine ⟨by decide, ?_⟩
  rw [Path.confines_iff (components_includePath_of_rooted (by decide))]
  decide

end SourceFile

end RomLayout
