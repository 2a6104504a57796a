import RomLayout.Layout

set_option autoImplicit false

/-!
Layout descriptions: the files of a project, the sections of each file and their
entries, and the layout that they make.

Every file counts its items from zero. The header of a section takes the next source
index, and so does each of its entries.
-/

namespace RomLayout

inductive EntryDescription where
  | label (name : String)
  | instruction (mnemonic : String) (size : UInt64)
  | data (values : List UInt8) (size : Option UInt64)
  /-- Room for a variable. -/
  | slot (size : UInt64)
  | binary (text : Path)
  deriving DecidableEq

structure SectionDescription where
  region : String
  bank : Option Int64
  offset : Option UInt64
  entries : List EntryDescription
  deriving DecidableEq

structure FileDescription where
  /-- Path of the file, seen from the layout file. -/
  name : String
  /-- Sections by their names, in the order of the text. -/
  sections : List (String × SectionDescription)
  deriving DecidableEq

structure Description where
  files : List FileDescription
  deriving DecidableEq

namespace EntryDescription

/-- The payload of the entry, unless a file has to be measured for it. A data block has
room for all of its values. -/
def inMemory? : EntryDescription → Option Payload
  | label name => some (.label name)
  | instruction mnemonic size => some (.instruction mnemonic size)
  | data values size =>
      let count := values.length.toUInt64
      some (.data ⟨values, max (size.getD count) count⟩)
  | slot size => some (.slot size)
  | binary _ => none

/-- Adds the entry to the section with this number. A payload for a section that is not there
is passed over. -/
def addTo (entry : EntryDescription) (files : Lookup) (source : SourceFile)
    (number index : Nat) (layout : Layout) : Except Error Layout :=
  match entry.inMemory? with
  | some payload =>
      match layout.section? number with
      | some current =>
          let (outcome, changed) := current.append payload index
          outcome.map fun _ => layout.update number changed
      | none => .ok layout
  | none =>
      match entry with
      | binary text =>
          let (outcome, changed) := layout.registerInclude files source number text index
          outcome.map fun _ => changed
      | _ => .ok layout

end EntryDescription

/-- Adds entries to one section, the first of which has the given source index. -/
def addEntries (files : Lookup) (source : SourceFile) (number : Nat) :
    Nat → Layout → List EntryDescription → Except Error Layout
  | _, layout, [] => .ok layout
  | index, layout, entry :: rest =>
      match entry.addTo files source number index layout with
      | .error error => .error error
      | .ok changed => addEntries files source number (index + 1) changed rest

namespace SectionDescription

def declaration (described : SectionDescription) (file name : String) (index : Nat) :
    Declaration :=
  { file, name, index, region := described.region, bank := described.bank,
    offset := described.offset }

def itemCount (described : SectionDescription) : Nat := described.entries.length + 1

/-- Declares the section behind those that a layout has, and adds its entries. -/
def addTo (described : SectionDescription) (files : Lookup) (source : SourceFile)
    (name : String) (index : Nat) (layout : Layout) : Except Error Layout :=
  match (described.declaration source.name name index).bind with
  | .error error => .error error
  | .ok bound =>
      let (number, declared) := layout.declare bound
      addEntries files source number (index + 1) declared described.entries

end SectionDescription

/-- Adds the sections of one file, the first of which has the given source index. -/
def addSections (files : Lookup) (source : SourceFile) :
    Nat → Layout → List (String × SectionDescription) → Except Error Layout
  | _, layout, [] => .ok layout
  | index, layout, (name, described) :: rest =>
      match described.addTo files source name index layout with
      | .error error => .error error
      | .ok changed => addSections files source (index + described.itemCount) changed rest

namespace FileDescription

/-- The source file, seen from the directory of the layout file. -/
def source (file : FileDescription) (directory : Path) : SourceFile :=
  ⟨file.name, directory.join (Path.ofString file.name)⟩

def addTo (file : FileDescription) (files : Lookup) (directory : Path) (layout : Layout) :
    Except Error Layout :=
  addSections files (file.source directory) 0 layout file.sections

end FileDescription

namespace Description

/-- Adds the sections of files, up to the first item that is refused. -/
def addFiles (files : Lookup) (directory : Path) :
    Layout → List FileDescription → Except Error Layout
  | layout, [] => .ok layout
  | layout, file :: rest =>
      match file.addTo files directory layout with
      | .error error => .error error
      | .ok changed => addFiles files directory changed rest

/-- The layout that a description makes. Names of files are seen from `directory`,
rooted includes from `base`. -/
def build (description : Description) (files : Lookup) (directory base : Path) :
    Except Error Layout :=
  addFiles files directory (Layout.empty base) description.files

def includePaths (description : Description) (directory base : Path) : List Path :=
  description.files.flatMap fun file =>
    file.sections.flatMap fun (_, described) =>
      described.entries.filterMap fun entry =>
        match entry with
        | .binary text => some ((file.source directory).includePath base text)
        | _ => none

end Description

end RomLayout
