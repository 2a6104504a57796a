import RomLayout.Section.Basic

set_option autoImplicit false

/-!
Resolving a section: its entries stand behind one another from its origin on.

A label gets the processor address of the next byte, any other entry its physical
address. Only the entry directly behind a label belongs to it. Placing stops at
the first entry that ends behind the bank; that entry keeps its new address, and
the entries behind it keep what they had.
-/

namespace RomLayout

namespace Binding

/-- The error of an entry that ends at `reached`. -/
def overflowAt (binding : Binding) (entry : Entry) (reached : UInt64) : Error :=
  .sectionOverflow ⟨binding.file, entry.index⟩
    { excess := reached - binding.high, start := binding.bankOffset,
      limit := binding.high, reached }

/-- Entries placed from `running` on, `pending` being the label in front of them.
The result is where they end. -/
def place (binding : Binding) (running : UInt64) (pending : Option EntryId) :
    List Entry → Except Error UInt64 × List Entry
  | [] => (.ok running, [])
  | entry :: rest =>
      if entry.payload.isLabel then
        let placed := { entry with address := some ⟨.cpu, running - binding.bankOffset⟩ }
        let (result, others) := binding.place running (some entry.id) rest
        (result, placed :: others)
      else
        let placed := { entry with address := some ⟨.physical, running⟩, label := pending }
        let next := Address.saturatingAdd running entry.size
        if binding.high < next then (.error (binding.overflowAt entry next), placed :: rest)
        else
          let (result, others) := binding.place next none rest
          (result, placed :: others)

end Binding

namespace Section

/-- Assigns addresses and labels. The size is recorded if all entries fit. -/
def resolve (current : Section) : Except Error UInt64 × Section :=
  match current.binding.place current.binding.origin none current.entries with
  | (.ok reached, entries) =>
      let size := reached - current.binding.origin
      (.ok size, { current with entries, size := some size })
  | (.error error, entries) => (.error error, { current with entries })

end Section

end RomLayout
