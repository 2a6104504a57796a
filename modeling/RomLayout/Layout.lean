import RomLayout.Include
import RomLayout.Section.Resolve
import RomLayout.Occupancy

set_option autoImplicit false

/-!
A layout: all sections of a project, numbered in the order of their declaration,
and the base directory that rooted includes start from.
-/

namespace RomLayout

structure Layout where
  base : Path
  sections : List Section

namespace Layout

def empty (base : Path) : Layout := ⟨base, []⟩

def section? (layout : Layout) (number : Nat) : Option Section := layout.sections[number]?

/-- Adds a section and gives its number. -/
def declare (layout : Layout) (declared : Section) : Nat × Layout :=
  (layout.sections.length, { layout with sections := layout.sections ++ [declared] })

def update (layout : Layout) (number : Nat) (changed : Section) : Layout :=
  { layout with sections := layout.sections.set number changed }

def registerInclude (layout : Layout) (files : Lookup) (source : SourceFile) (number : Nat)
    (text : Path) (index : Nat) : Except Error EntryId × Layout :=
  match layout.section? number with
  | none => (.error (.sectionNotFound number), layout)
  | some current =>
      let (outcome, changed) := current.register files source layout.base text index
      (outcome, layout.update number changed)

/-- Sections resolved one after the other, up to the first that fails. -/
def resolveSections : List Section → Except Error UInt64 × List Section
  | [] => (.ok 0, [])
  | current :: rest =>
      match current.resolve with
      | (.error error, changed) => (.error error, changed :: rest)
      | (.ok size, changed) =>
          match resolveSections rest with
          | (.error error, others) => (.error error, changed :: others)
          | (.ok total, others) => (.ok (size + total), changed :: others)

/-- Resolves every section. The result is the number of bytes in all of them. -/
def resolve (layout : Layout) : Except Error UInt64 × Layout :=
  let (result, sections) := resolveSections layout.sections
  (result, { layout with sections })

def checkOverlaps (layout : Layout) : Except Error Unit := RomLayout.checkOverlaps layout.sections

end Layout

end RomLayout
