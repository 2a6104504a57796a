import Mathlib.Data.List.Infix
import RomLayout.Proofs.Confinement

set_option autoImplicit false

/-!
The directory of a source file, and where its includes are looked for.

A path is cut where its text stands: the blank pieces at the end go, then the last step, then
the blank pieces in front of that step. What is left keeps the start of the path and makes all
of its steps but the last one. The text of an include only ever adds steps behind those of the
directory that it is seen from, so it cannot lead to a path that begins in another way.
-/

namespace RomLayout.Path

section Pieces

theorem glue_eq_intercalate (parts : List Name) : glue parts = [separator].intercalate parts := by
  induction parts with
  | nil => rfl
  | cons first others inductionHypothesis =>
      cases others with
      | nil => simp [glue, List.intercalate]
      | cons second rest =>
          rw [glue, inductionHypothesis, List.intercalate_cons_cons, List.append_assoc,
            List.singleton_append]
          exact List.cons_ne_nil _ _

theorem separator_not_mem_of_mem_pieces {characters : List Char} {piece : Name}
    (member : piece ∈ pieces characters) : separator ∉ piece := by
  induction characters generalizing piece with
  | nil =>
      rw [pieces, List.mem_singleton] at member
      rw [member]
      exact List.not_mem_nil
  | cons character rest inductionHypothesis =>
      rw [pieces] at member
      split at member
      · rcases List.mem_cons.mp member with rfl | behind
        · exact List.not_mem_nil
        · exact inductionHypothesis behind
      · rename_i other
        split at member
        · rename_i first others equation
          rw [equation] at inductionHypothesis
          rcases List.mem_cons.mp member with rfl | behind
          · rw [List.mem_cons, not_or]
            exact ⟨Ne.symm other, inductionHypothesis List.mem_cons_self⟩
          · exact inductionHypothesis (List.mem_cons_of_mem first behind)
        · rename_i equation
          exact absurd equation (pieces_ne_nil rest)

theorem stepsOf_glue {parts : List Name} (whole : ∀ piece ∈ parts, separator ∉ piece) :
    stepsOf (glue parts) = parts.filterMap component? := by
  by_cases empty : parts = []
  · rw [empty]
    rfl
  · rw [stepsOf, pieces_eq_splitOn, glue_eq_intercalate,
      List.splitOn_intercalate separator whole empty]

theorem glue_append {front back : List Name} (someFront : front ≠ []) (someBack : back ≠ []) :
    glue (front ++ back) = glue front ++ separator :: glue back := by
  induction front with
  | nil => exact absurd rfl someFront
  | cons first others inductionHypothesis =>
      cases others with
      | nil =>
          rw [List.singleton_append, glue, glue]
          exact someBack
      | cons second rest =>
          have behind := inductionHypothesis (List.cons_ne_nil second rest)
          rw [List.cons_append] at behind
          simp only [List.cons_append, glue, behind, List.append_assoc]

theorem glue_prefix {front parts : List Name} (isFront : front <+: parts) :
    glue front <+: glue parts := by
  obtain ⟨back, rfl⟩ := isFront
  by_cases someFront : front = []
  · rw [someFront]
    exact List.nil_prefix
  · by_cases someBack : back = []
    · rw [someBack, List.append_nil]
    · rw [glue_append someFront someBack]
      exact List.prefix_append _ _

theorem filterMap_dropWhile_isBlank (parts : List Name) :
    (parts.dropWhile isBlank).filterMap component? = parts.filterMap component? := by
  induction parts with
  | nil => rfl
  | cons piece rest inductionHypothesis =>
      rw [List.dropWhile_cons]
      split
      · rename_i blank
        have noStep : component? piece = none := by rw [component?, if_pos blank]
        rw [inductionHypothesis, List.filterMap_cons_none noStep]
      · rfl

theorem exists_component?_eq_some {piece : Name} (moves : isBlank piece = false) :
    ∃ step, component? piece = some step := by
  rw [component?, moves]
  split
  · contradiction
  · split
    · exact ⟨_, rfl⟩
    · exact ⟨_, rfl⟩

/-- The text of a body up to its last step, which is the only one that it leaves out. -/
theorem stepsOf_cases (body : List Char) :
    ((pieces body).reverse.dropWhile isBlank = [] ∧ stepsOf body = []) ∨
      ∃ last remaining step,
        (pieces body).reverse.dropWhile isBlank = last :: remaining ∧
        glue (remaining.dropWhile isBlank).reverse <+: body ∧
        stepsOf body = stepsOf (glue (remaining.dropWhile isBlank).reverse) ++ [step] := by
  have backwards : ((pieces body).reverse.dropWhile isBlank).filterMap component? =
      (stepsOf body).reverse := by
    rw [filterMap_dropWhile_isBlank, List.filterMap_reverse, stepsOf]
  have moves := List.head?_dropWhile_not isBlank (pieces body).reverse
  have suffix := List.dropWhile_suffix (l := (pieces body).reverse) isBlank
  cases equation : (pieces body).reverse.dropWhile isBlank with
  | nil =>
      rw [equation, List.filterMap_nil, eq_comm, List.reverse_eq_nil_iff] at backwards
      exact .inl ⟨rfl, backwards⟩
  | cons last remaining =>
      rw [equation] at backwards moves suffix
      obtain ⟨step, isStep⟩ := exists_component?_eq_some moves
      have isFront : (remaining.dropWhile isBlank).reverse <+: pieces body := by
        rw [← List.reverse_suffix, List.reverse_reverse]
        exact (List.dropWhile_suffix isBlank).trans ((List.suffix_cons last remaining).trans suffix)
      have whole : ∀ piece ∈ (remaining.dropWhile isBlank).reverse, separator ∉ piece :=
        fun _ member => separator_not_mem_of_mem_pieces (isFront.subset member)
      refine .inr ⟨last, remaining, step, rfl, ?_, ?_⟩
      · have shorter := glue_prefix isFront
        rwa [glue_pieces] at shorter
      · rw [stepsOf_glue whole, List.filterMap_reverse, filterMap_dropWhile_isBlank,
          ← List.reverse_cons, ← List.filterMap_cons_some isStep, backwards, List.reverse_reverse]

end Pieces

section Start

/-- A body that goes on behind a start without making another start of it. -/
inductive Continues : List Char → List Char → Prop where
  | root (body : List Char) : Continues ['/'] body
  | here {body : List Char} :
      (∀ first, body.head? = some first → first = separator) → Continues ['.'] body
  | plain {body : List Char} :
      (∀ first, body.head? = some first → first ≠ separator) → Continues [] body

theorem continues_splitStart (characters : List Char) :
    Continues (splitStart characters).1 (splitStart characters).2 ∧
      (splitStart characters).1 ++ (splitStart characters).2 = characters := by
  fun_cases splitStart characters with
  | case1 body => exact ⟨.root body, rfl⟩
  | case2 => exact ⟨.here (by simp), rfl⟩
  | case3 body => exact ⟨.here (by simp [separator]), rfl⟩
  | case4 _ notRoot =>
      refine ⟨.plain ?_, rfl⟩
      intro first isFirst isSeparator
      obtain ⟨body, rfl⟩ := List.head?_eq_some_iff.mp isFirst
      exact notRoot body (by rw [isSeparator]; rfl)

variable {start body front : List Char}

theorem Continues.of_prefix (continues : Continues start body) (isFront : front <+: body) :
    Continues start front := by
  have sameFirst : ∀ first, front.head? = some first → body.head? = some first := by
    intro first isFirst
    obtain ⟨behind, rfl⟩ := isFront
    rw [List.head?_append, isFirst, Option.some_or]
  cases continues with
  | root => exact .root front
  | here ends => exact .here fun first isFirst => ends first (sameFirst first isFirst)
  | plain relative => exact .plain fun first isFirst => relative first (sameFirst first isFirst)

theorem Continues.components_eq (continues : Continues start body) :
    (⟨start ++ body⟩ : Path).components =
      (if start = ['/'] then [.root] else []) ++ stepsOf body := by
  rw [Path.components_eq]
  cases continues with
  | root =>
      have steps : stepsOf ('/' :: body) = stepsOf body := stepsOf_separator body
      rw [List.singleton_append, steps]
      rfl
  | here ends =>
      have blank : stepsOf ['.'] = [] := by decide
      cases body with
      | nil =>
          rw [List.append_nil, blank]
          rfl
      | cons first rest =>
          obtain rfl := ends first rfl
          rw [stepsOf_append_separator, blank, stepsOf_separator]
          rfl
  | plain relative =>
      have notAbsolute : isAbsolute ⟨[] ++ body⟩ = false := by
        rw [isAbsolute, beq_eq_false_iff_ne]
        exact fun isFirst => relative separator isFirst rfl
      rw [notAbsolute]
      rfl

end Start

/-- A text whose first piece is blank has a start, if it is not empty. -/
theorem eq_nil_of_stepsOf {characters : List Char} (noStart : (splitStart characters).1 = [])
    (noSteps : stepsOf characters = []) : characters = [] := by
  fun_cases splitStart characters with
  | case1 | case2 | case3 => cases noStart
  | case4 _ notRoot notHere notBelow =>
      cases characters with
      | nil => rfl
      | cons first rest =>
          have notSeparator : first ≠ separator := fun same => notRoot rest (by rw [same]; rfl)
          cases equation : pieces rest with
          | nil => exact absurd equation (pieces_ne_nil rest)
          | cons piece others =>
              have cut : pieces (first :: rest) = (first :: piece) :: others := by
                rw [pieces, if_neg notSeparator, equation]
              have blank : isBlank (first :: piece) = true := by
                by_contra moves
                obtain ⟨step, isStep⟩ := exists_component?_eq_some (Bool.not_eq_true _ ▸ moves)
                rw [stepsOf, cut, List.filterMap_cons_some isStep] at noSteps
                cases noSteps
              obtain ⟨rfl, rfl⟩ : first = '.' ∧ piece = [] := by simpa [isBlank] using blank
              -- The dot stands alone in its piece, so there is nothing or a separator behind it.
              cases rest with
              | nil => exact absurd rfl notHere
              | cons next behind =>
                  by_cases isSeparator : next = separator
                  · exact absurd (by rw [isSeparator]; rfl) (notBelow behind)
                  · rw [pieces, if_neg isSeparator] at equation
                    split at equation <;> cases equation

/-- What the parent of a path is: there is none, or it is the empty path because the path names
no step, or it makes all steps of the path but the last one. -/
theorem parent?_cases (path : Path) :
    (path.parent? = none ∧ (path.characters = [] ∨ path.components = [.root])) ∨
    (path.parent? = some empty ∧ path.characters ≠ [] ∧ path.components = []) ∨
    ∃ parent step, path.parent? = some parent ∧ step ≠ .root ∧
      path.components = parent.components ++ [step] := by
  obtain ⟨continues, whole⟩ := continues_splitStart path.characters
  have noStart := @eq_nil_of_stepsOf path.characters
  unfold parent?
  generalize splitStart path.characters = cut at continues whole noStart ⊢
  obtain ⟨start, body⟩ := cut
  dsimp only at continues whole noStart ⊢
  have components : path.components = (if start = ['/'] then [.root] else []) ++ stepsOf body := by
    rw [← continues.components_eq, whole]
  rcases stepsOf_cases body with ⟨nothing, noSteps⟩ | ⟨last, remaining, step, cut, isFront, steps⟩
  · rw [nothing]
    rw [noSteps] at components
    cases continues with
    | root => exact .inl ⟨rfl, .inr components⟩
    | here =>
        refine .inr (.inl ⟨rfl, ?_, components⟩)
        rw [← whole]
        exact List.cons_ne_nil _ _
    | plain =>
        rw [List.nil_append] at whole
        exact .inl ⟨rfl, .inl (noStart rfl (whole ▸ noSteps))⟩
  · rw [cut]
    refine .inr (.inr ⟨_, step, rfl, ?_, ?_⟩)
    · have member : step ∈ stepsOf body := by simp [steps]
      rintro rfl
      exact root_not_mem_stepsOf body member
    · rw [components, steps, (continues.of_prefix isFront).components_eq, List.append_assoc]

theorem components_directory (path : Path) :
    path.directory.components = path.components.dropLast := by
  unfold directory
  rcases path.parent?_cases with
    ⟨missing, noText | isRoot⟩ | ⟨found, -, noSteps⟩ | ⟨parent, step, found, -, steps⟩
  · have noSteps : path.components = [] := by
      rw [components_eq, isAbsolute, noText]
      rfl
    rw [missing, noSteps]
    rfl
  · rw [missing, isRoot]
    rfl
  · rw [found, noSteps]
    rfl
  · rw [found, steps, List.dropLast_concat, Option.getD_some]

/-- Only the empty path and the root, in all of its spellings, have no parent. -/
theorem parent?_eq_none_iff {path : Path} :
    path.parent? = none ↔ path.characters = [] ∨ path.components = [.root] := by
  rcases path.parent?_cases with
    ⟨missing, atTop⟩ | ⟨found, someText, noSteps⟩ | ⟨parent, step, found, notRoot, steps⟩
  · exact ⟨fun _ => atTop, fun _ => missing⟩
  · rw [found, noSteps]
    simp [someText]
  · have someText : path.characters ≠ [] := by
      intro noText
      rw [components_eq, isAbsolute, noText] at steps
      simp [stepsOf, pieces, component?, isBlank] at steps
    have below : path.components ≠ [.root] := by
      rw [steps]
      intro isRoot
      have sameLast := congrArg List.getLast? isRoot
      rw [List.getLast?_concat] at sameLast
      exact notRoot (Option.some.inj sameLast)
    rw [found]
    simp [someText, below]

/-- The path without the separators in front. -/
def unrooted (path : Path) : Path := ⟨path.characters.dropWhile (· == separator)⟩

end RomLayout.Path

namespace RomLayout.SourceFile

/-- Where an include text is seen from. -/
def includeRoot (source : SourceFile) (base text : Path) : Path :=
  if text.isAbsolute then base else source.directory

theorem components_includePath (source : SourceFile) (base text : Path) :
    (source.includePath base text).components =
      (source.includeRoot base text).components ++ text.unrooted.components := by
  have relative := Path.isAbsolute_dropWhile_separator text.characters
  have steps : text.unrooted.components = Path.stepsOf text.characters := by
    rw [Path.unrooted, Path.components_of_relative relative, Path.stepsOf_dropWhile_separator]
  rw [steps, includeRoot]
  split
  · rename_i rooted
    exact components_includePath_of_rooted rooted
  · rename_i notRooted
    have isRelative : text.isAbsolute = false := Bool.not_eq_true _ ▸ notRooted
    rw [includePath, if_neg notRooted, Path.components_join isRelative,
      Path.components_of_relative isRelative]

/-- An include makes the steps of its text behind those of one directory, and the text decides
no more than which of two it is: the base if it is rooted, else the directory of the source
file. This directory makes the steps of the path of the file but the last one, and is empty
where the path has no parent. -/
theorem includePath_exact (source : SourceFile) (base text : Path) :
    (source.includePath base text).components =
      (source.includeRoot base text).components ++ text.unrooted.components ∧
    (source.includeRoot base text).components <+: (source.includePath base text).components ∧
    source.directory.components = source.path.components.dropLast ∧
    (source.path.parent? = none ↔
      source.path.characters = [] ∨ source.path.components = [.root]) ∧
    (source.path.parent? = none → source.directory = Path.empty) := by
  have steps := source.components_includePath base text
  refine ⟨steps, ?_, source.path.components_directory, Path.parent?_eq_none_iff, ?_⟩
  · rw [steps]
    exact List.prefix_append _ _
  · intro missing
    rw [directory, Path.directory, missing, Option.getD_none]

end RomLayout.SourceFile
