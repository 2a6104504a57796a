set_option autoImplicit false

/-!
Paths as plain text. Joining and taking the parent keep the text as it was
written; `components` is what the text means: the steps that it makes from
directory to directory, with repeated separators and `.` left out.
-/

namespace RomLayout

/-- One name between separators. -/
abbrev Name := List Char

structure Path where
  characters : List Char
  deriving DecidableEq

inductive Component where
  /-- Down from the root of all files; only the first step can be this one. -/
  | root
  | up
  | name (name : Name)
  deriving DecidableEq

namespace Path

def separator : Char := '/'

def ofString (text : String) : Path := ⟨text.toList⟩

def text (path : Path) : String := String.ofList path.characters

def empty : Path := ⟨[]⟩

def isAbsolute (path : Path) : Bool := path.characters.head? == some separator

/-- The text between the separators. There is one piece more than separators. -/
def pieces : List Char → List Name
  | [] => [[]]
  | character :: rest =>
      if character = separator then [] :: pieces rest
      else match pieces rest with
        | first :: others => (character :: first) :: others
        | [] => [[character]]

def glue : List Name → List Char
  | [] => []
  | [piece] => piece
  | piece :: others => piece ++ separator :: glue others

/-- A piece that does not move: nothing between two separators, or `.`. -/
def isBlank (piece : Name) : Bool := piece == [] || piece == ['.']

/-- `inner` as seen from the directory `outer`. An absolute path replaces the
directory, and a separator is written only where the directory has none. -/
def join (outer inner : Path) : Path :=
  if inner.isAbsolute then inner
  else if outer.characters = [] ∨ outer.characters.getLast? = some separator then
    ⟨outer.characters ++ inner.characters⟩
  else ⟨outer.characters ++ separator :: inner.characters⟩

/-- Where a path starts, and the rest of its text: the root, a leading `.`, or
the working directory without a sign of it. -/
def splitStart : List Char → List Char × List Char
  | '/' :: body => (['/'], body)
  | ['.'] => (['.'], [])
  | '.' :: '/' :: body => (['.'], '/' :: body)
  | body => ([], body)

/-- The path without its last step, and without the blank pieces around it. The
root and the empty path have no parent. -/
def parent? (path : Path) : Option Path :=
  let (start, body) := splitStart path.characters
  match (pieces body).reverse.dropWhile isBlank with
  | _last :: remaining =>
      some ⟨start ++ glue (remaining.dropWhile isBlank).reverse⟩
  | [] => if start = ['.'] then some empty else none

/-- The parent, or the empty path where there is none. -/
def directory (path : Path) : Path := path.parent?.getD empty

def component? (piece : Name) : Option Component :=
  if isBlank piece then none
  else if piece = ['.', '.'] then some .up
  else some (.name piece)

def components (path : Path) : List Component :=
  (if path.isAbsolute then [.root] else []) ++ (pieces path.characters).filterMap component?

theorem pieces_ne_nil (characters : List Char) : pieces characters ≠ [] := by
  cases characters with
  | nil => simp [pieces]
  | cons character rest =>
      simp only [pieces]
      split
      · simp
      · split <;> simp

theorem glue_pieces (characters : List Char) : glue (pieces characters) = characters := by
  induction characters with
  | nil => rfl
  | cons character rest inductionHypothesis =>
      simp only [pieces]
      split
      · rename_i isSeparator
        cases equation : pieces rest with
        | nil => exact absurd equation (pieces_ne_nil rest)
        | cons first others =>
            rw [equation] at inductionHypothesis
            simp [glue, inductionHypothesis, isSeparator]
      · cases equation : pieces rest with
        | nil => exact absurd equation (pieces_ne_nil rest)
        | cons first others =>
            rw [equation] at inductionHypothesis
            cases others <;> simp_all [glue]

end Path

end RomLayout
