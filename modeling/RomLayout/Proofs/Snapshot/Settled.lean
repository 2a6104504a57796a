import RomLayout.Snapshot.Basic
import RomLayout.Proofs.Frames

set_option autoImplicit false

/-!
The snapshot of a section that has just been resolved, entry by entry.

Every offset is the running address at the position of the entry, and the name of the
label is read off the entry directly in front. The ids that the section looks labels up
with do not show.
-/

namespace RomLayout

namespace Payload

/-- The snapshot of an entry with this payload. A label shows no label in front. -/
def snapshot (payload : Payload) (offset : Option UInt64) (front : Option String) :
    EntrySnapshot :=
  match payload with
  | label name => .label name offset payload.size
  | instruction mnemonic _ => .placed (.instruction mnemonic) offset payload.size front
  | data block => .placed (.dataBlock block.values) offset payload.size front
  | slot _ => .placed .slot offset payload.size front
  | binary included => .placed (.binary included.path) offset payload.size front

theorem snapshot_of_isLabel {payload : Payload} (isLabel : payload.isLabel = true)
    (offset : Option UInt64) (front other : Option String) :
    payload.snapshot offset front = payload.snapshot offset other := by
  cases payload with
  | label name => rfl
  | instruction | data | slot | binary => cases isLabel

theorem labelName?_of_content {payload : Payload} (content : payload.isLabel = false) :
    payload.labelName? = none := by
  cases payload with
  | label name => cases content
  | instruction | data | slot | binary => rfl

end Payload

/-- The name of the label directly in front of a position. -/
def labelNameBefore? (payloads : List Payload) : Nat → Option String
  | 0 => none
  | position + 1 => payloads[position]?.bind Payload.labelName?

namespace Section

variable {current changed : Section} {size : UInt64} {position : Nat} {entry : Entry}

def payloads (current : Section) : List Payload := current.entries.map (·.payload)

theorem entrySnapshot_eq (current : Section) (entry : Entry) :
    current.entrySnapshot entry =
      entry.payload.snapshot (entry.offset? .physical current.binding.bankOffset)
        (current.labelNameOf? entry.id) := by
  unfold entrySnapshot Payload.snapshot Entry.size
  cases entry.payload <;> rfl

/-- A pass that ends well has settled every entry, labels and others alike. -/
theorem getElem?_of_resolve (sound : current.binding.Sound)
    (resolved : current.resolve = (.ok size, changed))
    (found : current.entries[position]? = some entry) :
    ∃ address : UInt64, address.toNat = current.runningAt position ∧
      changed.entries[position]? = some
        (current.binding.settle address (labelBefore? none current.entries position) entry) := by
  obtain ⟨fits, -, rfl⟩ := (resolve_ok_iff sound size changed).mp resolved
  have inFront := totalSize_take_le current.entries position
  exact Binding.getElem?_place sound sound.origin_le_high none found (by omega)

theorem offset?_settle (sound : current.binding.Sound) {address : UInt64}
    (here : address.toNat = current.runningAt position) (pending : Option EntryId) (entry : Entry) :
    (current.binding.settle address pending entry).offset? .physical current.binding.bankOffset =
      some address := by
  have atLeast : current.binding.origin ≤ address := by
    rw [UInt64.le_iff_toNat_le, here]
    exact Nat.le_add_right _ _
  rw [Entry.offset?, Binding.settle_address]
  exact (sound.to?_addressAt atLeast entry).1

theorem Identified.labelOf?_eq (identified : current.Identified)
    (member : entry ∈ current.entries) :
    current.labelOf? entry.id = entry.label.bind current.entry? := by
  rw [labelOf?, identified.entry?_eq member, Option.bind_some]

/-- Looking up the label in front by its id finds the entry in front. -/
theorem labelName_of_resolve (sound : current.binding.Sound)
    (resolved : current.resolve = (.ok size, changed)) (identified : changed.Identified)
    (inside : position < current.entries.length) :
    (((labelBefore? none current.entries position).bind changed.entry?).bind
      (·.payload.labelName?)) = labelNameBefore? current.payloads position := by
  cases position with
  | zero => rfl
  | succ position =>
      have found := List.getElem?_eq_getElem (Nat.lt_of_succ_lt inside)
      obtain ⟨address, -, settled⟩ := getElem?_of_resolve sound resolved found
      rw [labelBefore?, labelNameBefore?, payloads, List.getElem?_map, found, Option.map_some,
        Option.bind_some, Option.bind_some]
      unfold Entry.labelId?
      split
      · have lookup := identified.entry?_eq (List.mem_of_getElem? settled)
        rw [Binding.settle_id] at lookup
        rw [Option.bind_some, lookup, Option.bind_some, Binding.settle_payload]
      · rename_i content
        rw [Payload.labelName?_of_content (Bool.eq_false_iff.mpr content)]
        rfl

/-- The snapshot of a freshly resolved section, without the pass and without ids. -/
theorem snapshot_entries_of_resolve (reachable : Reachable current)
    (resolved : current.resolve = (.ok size, changed))
    (found : current.entries[position]? = some entry) :
    ∃ address : UInt64, address.toNat = current.runningAt position ∧
      changed.snapshot.entries[position]? = some
        (entry.payload.snapshot (some address) (labelNameBefore? current.payloads position)) := by
  have sound := reachable.sound
  have identified : changed.Identified := by
    have after := reachable.resolve.identified
    rwa [resolved] at after
  have sameBinding : changed.binding = current.binding := by
    rw [← current.resolve_binding, resolved]
  obtain ⟨address, here, settled⟩ := getElem?_of_resolve sound resolved found
  refine ⟨address, here, ?_⟩
  have inside : position < current.entries.length := (List.getElem?_eq_some_iff.mp found).1
  have name := labelName_of_resolve sound resolved identified inside
  have lookup := identified.labelOf?_eq (List.mem_of_getElem? settled)
  simp only [snapshot, List.getElem?_map, settled, Option.map_some, Option.some.injEq]
  rw [entrySnapshot_eq, sameBinding, offset?_settle sound here, Binding.settle_payload]
  by_cases isLabel : entry.payload.isLabel
  · exact Payload.snapshot_of_isLabel isLabel _ _ _
  · rw [labelNameOf?, lookup, Binding.settle, if_neg isLabel, name]

end Section

end RomLayout
