import RomLayout.Entry

set_option autoImplicit false

/-!
Sections: a named run of entries, bound to one bank of a region.

`Declaration.bind` checks region, bank and offset; after that the binding never
changes. Entries are appended, inserted and removed one by one. Each change of the
entry list clears the size, which only resolving sets again.
-/

namespace RomLayout

structure Declaration where
  file : String
  name : String
  index : Nat
  region : String
  bank : Option Int64
  offset : Option UInt64
  deriving DecidableEq

structure Binding where
  file : String
  name : String
  index : Nat
  region : Region
  bank : UInt64
  /-- The declared offset. -/
  declared : Option UInt64
  deriving DecidableEq

namespace Binding

def window (binding : Binding) : Window := binding.region.window binding.bank

def low (binding : Binding) : UInt64 := binding.window.low

def high (binding : Binding) : UInt64 := binding.window.high

/-- Where the first byte goes: to the declared offset, else to the bottom of the
bank. -/
def origin (binding : Binding) : UInt64 := binding.declared.getD binding.low

def bankOffset (binding : Binding) : UInt64 := binding.low - binding.region.base

def location (binding : Binding) : Location := ⟨binding.file, binding.index⟩

end Binding

/-- A call that is still to be expanded before the entry at `position`. -/
structure MacroCall where
  name : String
  index : Nat
  position : Nat
  deriving DecidableEq

structure Section where
  binding : Binding
  entries : List Entry
  macroCalls : List MacroCall
  /-- Number of bytes used, unless the entries changed since it was found. -/
  size : Option UInt64
  nextId : EntryId
  deriving DecidableEq

namespace Declaration

def location (declaration : Declaration) : Location := ⟨declaration.file, declaration.index⟩

/-- The bank in a region, if the region has such a bank. Taken without its sign, a negative
number is a high one; it has been refused before that. -/
def bankIn (region : Region) (bank : Option Int64) : Except BankFault UInt64 :=
  let chosen := bank.getD region.defaultBank.toInt64
  if 0 < chosen ∧ ¬ region.isBanked then .error .notBanked
  else if chosen < 0 then .error .negative
  else if region.isBanked ∧ (chosen < 1 ∨ region.maxBank < chosen.toUInt64) then
    .error (.outOfRange region.maxBank)
  else .ok chosen.toUInt64

/-- The binding of a declaration. Region, bank and offset are checked in this
order. -/
def binding (declaration : Declaration) : Except Error Binding :=
  match Region.ofName? declaration.region with
  | none => .error (.unknownRegion declaration.location declaration.region)
  | some region =>
      match bankIn region declaration.bank with
      | .error fault => .error (.invalidBank declaration.location fault)
      | .ok bank =>
          let window := region.window bank
          let bound : Binding :=
            { file := declaration.file, name := declaration.name, index := declaration.index,
              region, bank, declared := declaration.offset }
          match declaration.offset with
          | none => .ok bound
          | some offset =>
              if window.low ≤ offset ∧ offset ≤ window.high then .ok bound
              else .error (.offsetOutOfRange declaration.location window)

def bind (declaration : Declaration) : Except Error Section :=
  declaration.binding.map fun binding =>
    { binding, entries := [], macroCalls := [], size := none, nextId := 0 }

end Declaration

namespace Section

/-- Whether the section has a place for a payload. -/
def check (current : Section) (payload : Payload) (index : Nat) : Except Error Unit :=
  match payload.violation? current.binding.region.storage with
  | some violation => .error (.illegalContent ⟨current.binding.file, index⟩ violation)
  | none => .ok ()

/-- The entry that a payload becomes, and the section as it is before the entry is put into
the list. The counter goes on and the size is forgotten only behind the check. -/
def makeEntry (current : Section) (payload : Payload) (index : Nat) :
    Except Error Entry × Section :=
  match current.check payload index with
  | .error error => (.error error, current)
  | .ok () =>
      let counted := { current with nextId := current.nextId + 1 }
      (.ok { id := current.nextId, payload, index, address := none, label := none },
        { counted with size := none })

def append (current : Section) (payload : Payload) (index : Nat) :
    Except Error EntryId × Section :=
  match current.makeEntry payload index with
  | (.error error, changed) => (.error error, changed)
  | (.ok entry, changed) => (.ok entry.id, { changed with entries := changed.entries ++ [entry] })

/-- A new entry in front of the one at `position`. Positions behind the last entry
append. -/
def insert (current : Section) (payload : Payload) (position index : Nat) :
    Except Error EntryId × Section :=
  match current.makeEntry payload index with
  | (.error error, changed) => (.error error, changed)
  | (.ok entry, changed) =>
      (.ok entry.id,
        { changed with
          entries := changed.entries.take position ++ entry :: changed.entries.drop position })

def entry? (current : Section) (id : EntryId) : Option Entry :=
  current.entries.find? (·.id == id)

/-- Takes an entry out, if there is one with this id. The others keep what they have. -/
def remove (current : Section) (id : EntryId) : Option Entry × Section :=
  match current.entry? id with
  | none => (none, current)
  | some entry =>
      let stale := { current with size := none }
      (some entry, { stale with entries := stale.entries.eraseP (·.id == id) })

def pushMacroCall (current : Section) (call : MacroCall) : Section :=
  { current with macroCalls := current.macroCalls ++ [call] }

/-- The label in front of an entry, if it is still there. -/
def labelOf? (current : Section) (id : EntryId) : Option Entry :=
  ((current.entry? id).bind (·.label)).bind current.entry?

def offset? (current : Section) (frame : Frame) (id : EntryId) : Option UInt64 :=
  (current.entry? id).bind (·.offset? frame current.binding.bankOffset)

/-- Where the section starts in a frame. -/
def beginning (current : Section) : Frame → UInt64
  | .physical => current.binding.origin
  | .cpu => current.binding.origin - current.binding.bankOffset

/-- Name, region, bank and the range of addresses, such as
`Main in ROMX[2] at $8000-$8010`. -/
def summary (current : Section) (frame : Frame) : String :=
  let first := current.beginning frame
  current.binding.name ++ " in " ++ current.binding.region.name ++ "["
    ++ Numeral.decimal current.binding.bank.toNat ++ "] at " ++ Hex.render first ++ "-"
    ++ Hex.render (first + current.size.getD 0)

end Section

end RomLayout
