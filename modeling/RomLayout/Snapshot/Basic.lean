import RomLayout.Layout

set_option autoImplicit false

/-!
Snapshots: what a section looks like from outside, with every entry offset
physical and labels by name.
-/

namespace RomLayout

inductive ContentSnapshot where
  | instruction (mnemonic : String)
  | dataBlock (values : List UInt8)
  | slot
  | binary (path : Path)
  deriving DecidableEq

inductive EntrySnapshot where
  | label (name : String) (offset : Option UInt64) (size : UInt64)
  /-- Any other entry, with the name of the label in front of it. -/
  | placed (content : ContentSnapshot) (offset : Option UInt64) (size : UInt64)
      (label : Option String)
  deriving DecidableEq

namespace EntrySnapshot

def offset : EntrySnapshot → Option UInt64
  | label _ offset _ => offset
  | placed _ offset _ _ => offset

def size : EntrySnapshot → UInt64
  | label _ _ size => size
  | placed _ _ size _ => size

end EntrySnapshot

structure SectionSnapshot where
  file : String
  name : String
  region : Region
  bank : UInt64
  low : UInt64
  high : UInt64
  origin : UInt64
  bankOffset : UInt64
  writeable : Bool
  entries : List EntrySnapshot
  deriving DecidableEq

namespace Section

def isReadWrite (current : Section) : Bool :=
  current.binding.region.storage == .readWrite

def labelNameOf? (current : Section) (id : EntryId) : Option String :=
  (current.labelOf? id).bind (·.payload.labelName?)

def entrySnapshot (current : Section) (entry : Entry) : EntrySnapshot :=
  let offset := entry.offset? .physical current.binding.bankOffset
  let placed (content : ContentSnapshot) : EntrySnapshot :=
    .placed content offset entry.size (current.labelNameOf? entry.id)
  match entry.payload with
  | .label name => .label name offset entry.size
  | .instruction mnemonic _ => placed (.instruction mnemonic)
  | .data block => placed (.dataBlock block.values)
  | .slot _ => placed .slot
  | .binary included => placed (.binary included.path)

def snapshot (current : Section) : SectionSnapshot where
  file := current.binding.file
  name := current.binding.name
  region := current.binding.region
  bank := current.binding.bank
  low := current.binding.low
  high := current.binding.high
  origin := current.binding.origin
  bankOffset := current.binding.bankOffset
  writeable := current.isReadWrite
  entries := current.entries.map current.entrySnapshot

end Section

namespace Layout

def snapshots (layout : Layout) : List SectionSnapshot := layout.sections.map Section.snapshot

end Layout

end RomLayout
