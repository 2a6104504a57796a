import RomLayout.Path

set_option autoImplicit false

/-!
What joined paths mean.

A path that is not absolute makes its own steps behind those of the directory that it is seen
from, whatever separators the two texts end and begin with.
-/

namespace RomLayout.Path

theorem pieces_eq_splitOn (characters : List Char) :
    pieces characters = characters.splitOn separator := by
  induction characters with
  | nil => rfl
  | cons character rest inductionHypothesis =>
      rw [pieces, List.splitOn_cons_eq_if_modifyHead, inductionHypothesis]
      by_cases isSeparator : character = separator
      · simp [isSeparator]
      · simp only [isSeparator, if_false, beq_iff_eq]
        cases equation : rest.splitOn separator with
        | nil => exact absurd equation (List.splitOn_ne_nil separator rest)
        | cons first others => rfl

/-- A separator ends one piece and begins another one. -/
theorem pieces_append_separator (front behind : List Char) :
    pieces (front ++ separator :: behind) = pieces front ++ pieces behind := by
  rw [pieces_eq_splitOn, pieces_eq_splitOn, pieces_eq_splitOn, List.splitOn_append_cons_self]

/-- The steps that a text makes, apart from the one to the root. -/
def stepsOf (characters : List Char) : List Component := (pieces characters).filterMap component?

theorem components_eq (path : Path) :
    path.components = (if path.isAbsolute then [.root] else []) ++ stepsOf path.characters :=
  rfl

theorem components_of_relative {path : Path} (relative : path.isAbsolute = false) :
    path.components = stepsOf path.characters := by
  rw [components_eq, relative]
  rfl

theorem stepsOf_append_separator (front behind : List Char) :
    stepsOf (front ++ separator :: behind) = stepsOf front ++ stepsOf behind := by
  rw [stepsOf, pieces_append_separator, List.filterMap_append, stepsOf, stepsOf]

theorem stepsOf_separator (behind : List Char) : stepsOf (separator :: behind) = stepsOf behind :=
  stepsOf_append_separator [] behind

/-- Separators in front make no steps. -/
theorem stepsOf_dropWhile_separator (characters : List Char) :
    stepsOf (characters.dropWhile (· == separator)) = stepsOf characters := by
  induction characters with
  | nil => rfl
  | cons character rest inductionHypothesis =>
      rw [List.dropWhile_cons]
      split
      · rename_i isSeparator
        rw [inductionHypothesis, eq_of_beq isSeparator, stepsOf_separator]
      · rfl

theorem isAbsolute_dropWhile_separator (characters : List Char) :
    isAbsolute ⟨characters.dropWhile (· == separator)⟩ = false := by
  induction characters with
  | nil => rfl
  | cons character rest inductionHypothesis =>
      rw [List.dropWhile_cons]
      split
      · exact inductionHypothesis
      · rename_i otherwise
        simpa [isAbsolute] using otherwise

theorem isAbsolute_append {outer : List Char} (nonempty : outer ≠ []) (inner : List Char) :
    isAbsolute ⟨outer ++ inner⟩ = isAbsolute ⟨outer⟩ := by
  cases outer with
  | nil => exact absurd rfl nonempty
  | cons character rest => rfl

/-- The steps of a path that is not absolute come behind those of the directory. -/
theorem components_join {outer inner : Path} (relative : inner.isAbsolute = false) :
    (outer.join inner).components = outer.components ++ inner.components := by
  have innerSteps := components_of_relative relative
  rw [innerSteps, components_eq outer, List.append_assoc, join, relative]
  obtain ⟨outer⟩ := outer
  by_cases empty : outer = []
  · subst empty
    exact innerSteps
  · have sameRoot := isAbsolute_append empty
    by_cases ends : outer.getLast? = some separator
    · -- The separator that is there already takes the place of a new one.
      obtain ⟨front, rfl⟩ := List.getLast?_eq_some_iff.mp ends
      simp only [ends, or_true, if_true, Bool.false_eq_true, if_false, components_eq, sameRoot]
      rw [List.append_assoc, List.singleton_append, stepsOf_append_separator,
        stepsOf_append_separator]
      simp [stepsOf, pieces, component?, isBlank]
    · simp only [ends, empty, or_self, if_false, Bool.false_eq_true, components_eq, sameRoot,
        stepsOf_append_separator]

end RomLayout.Path
