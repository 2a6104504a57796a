import RomLayout.Section.Basic

set_option autoImplicit false

/-!
Binary includes: a section takes in a file whose size is measured at once and
whose bytes are read later.

The text of an include is seen from the directory of the including source file.
Separators in front of it root it at the base directory of the project instead.
-/

namespace RomLayout

structure SourceFile where
  /-- The name that diagnostics show. -/
  name : String
  path : Path
  deriving DecidableEq

namespace SourceFile

def directory (source : SourceFile) : Path := source.path.directory

def includePath (source : SourceFile) (base text : Path) : Path :=
  if text.isAbsolute then
    base.join ⟨text.characters.dropWhile (· == Path.separator)⟩
  else source.directory.join text

end SourceFile

namespace Section

/-- Measures a file and appends it. The file is looked up first, so a missing one
is reported even where no file is allowed. -/
def register (current : Section) (files : Lookup) (source : SourceFile) (base text : Path)
    (index : Nat) : Except Error EntryId × Section :=
  let path := source.includePath base text
  let location : Location := ⟨source.name, index⟩
  match files path >>= FileNode.size? with
  | .error cause => (.error (.includeFailed location path cause), current)
  | .ok size => current.append (.binary ⟨location, path, size⟩) index

end Section

end RomLayout
