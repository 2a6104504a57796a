import RomLayout.Proofs.Image
import RomLayout.Proofs.Snapshot.Settled

set_option autoImplicit false

/-!
The snapshot of a section that has just been resolved, read on its own.

Nothing in a snapshot says how the section came about. It still tells the whole placement:
every offset follows from the sizes in front, every label in front of an entry is the entry
in front, and the processor address of a label is its offset without the bank offset.
-/

namespace RomLayout

namespace EntrySnapshot

/-- The name of the label in front. -/
def front : EntrySnapshot → Option String
  | label .. => none
  | placed _ _ _ front => front

/-- A snapshot has kind, content and size of a payload. What is in an included file is not
known. -/
inductive Shows : EntrySnapshot → Payload → Prop where
  | label (name : String) (offset : Option UInt64) : Shows (.label name offset 0) (.label name)
  | instruction (mnemonic : String) (size : UInt64) (offset : Option UInt64)
      (front : Option String) :
      Shows (.placed (.instruction mnemonic) offset size front) (.instruction mnemonic size)
  | data (block : DataBlock) (offset : Option UInt64) (front : Option String) :
      Shows (.placed (.dataBlock block.values) offset block.size front) (.data block)
  | slot (size : UInt64) (offset : Option UInt64) (front : Option String) :
      Shows (.placed .slot offset size front) (.slot size)
  | binary (included : Binary) (offset : Option UInt64) (front : Option String) :
      Shows (.placed (.binary included.path) offset included.size front) (.binary included)

end EntrySnapshot

/-- What a reader can rely on who has nothing but the snapshot. -/
structure SectionSnapshot.Consistent (snapshot : SectionSnapshot) : Prop where
  inside : ∀ entry ∈ snapshot.entries,
    ∃ offset, entry.offset = some offset ∧ snapshot.low ≤ offset ∧ offset ≤ snapshot.high
  first : ∀ entry, snapshot.entries[0]? = some entry → entry.offset = some snapshot.origin
  next : ∀ position entry other, snapshot.entries[position]? = some entry →
    snapshot.entries[position + 1]? = some other →
    ∃ offset nextOffset, entry.offset = some offset ∧ other.offset = some nextOffset ∧
      nextOffset.toNat = offset.toNat + entry.size.toNat
  front : ∀ position entry name, snapshot.entries[position]? = some entry →
    (entry.front = some name ↔
      entry.isLabel = false ∧
        ∃ before offset size, position = before + 1 ∧
          snapshot.entries[before]? = some (.label name offset size))

namespace Payload

variable (payload : Payload) (offset : Option UInt64) (front : Option String)

@[simp] theorem offset_snapshot : (payload.snapshot offset front).offset = offset := by
  cases payload <;> rfl

@[simp] theorem size_snapshot : (payload.snapshot offset front).size = payload.size := by
  cases payload <;> rfl

@[simp] theorem isLabel_snapshot : (payload.snapshot offset front).isLabel = payload.isLabel := by
  cases payload <;> rfl

theorem front_snapshot :
    (payload.snapshot offset front).front = if payload.isLabel then none else front := by
  cases payload <;> rfl

theorem shows_snapshot : (payload.snapshot offset front).Shows payload := by
  cases payload <;> constructor

theorem labelName?_eq_some_iff {payload : Payload} {name : String} :
    payload.labelName? = some name ↔ payload = .label name := by
  cases payload <;> simp [labelName?]

variable {payload offset front} in
theorem eq_label_of_snapshot {name : String} {position : Option UInt64} {size : UInt64}
    (shown : payload.snapshot offset front = .label name position size) :
    payload = .label name := by
  cases payload with
  | label other =>
      cases shown
      rfl
  | instruction | data | slot | binary => cases shown

end Payload

namespace Section

variable {current changed : Section} {size : UInt64} {position : Nat}

theorem labelNameBefore?_eq_some_iff {name : String} :
    labelNameBefore? current.payloads position = some name ↔
      ∃ before entry, position = before + 1 ∧ current.entries[before]? = some entry ∧
        entry.payload = .label name := by
  cases position with
  | zero => simp [labelNameBefore?]
  | succ before =>
      simp [labelNameBefore?, payloads, Option.bind_eq_some_iff, Payload.labelName?_eq_some_iff]

/-- A snapshot of the freshly resolved section, without the pass and without ids. -/
theorem shown_of_resolve (reachable : Reachable current)
    (resolved : current.resolve = (.ok size, changed)) {shown : EntrySnapshot}
    (shownFound : changed.snapshot.entries[position]? = some shown) :
    ∃ entry address, current.entries[position]? = some entry ∧
      address.toNat = current.runningAt position ∧
      shown = entry.payload.snapshot (some address)
        (labelNameBefore? current.payloads position) := by
  have placed := forall₂_resolve reachable.sound
  rw [resolved] at placed
  have inside : position < current.entries.length := by
    have shownInside := (List.getElem?_eq_some_iff.mp shownFound).1
    rwa [snapshot, List.length_map, ← placed.length_eq] at shownInside
  have found := List.getElem?_eq_getElem inside
  obtain ⟨address, here, closed⟩ := snapshot_entries_of_resolve reachable resolved found
  rw [shownFound, Option.some.injEq] at closed
  exact ⟨_, address, found, here, closed⟩

/-- A snapshot carries the name of a label exactly if this label is shown directly in
front. -/
theorem front_iff_of_resolve (reachable : Reachable current)
    (resolved : current.resolve = (.ok size, changed)) {shown : EntrySnapshot}
    (shownFound : changed.snapshot.entries[position]? = some shown) (name : String) :
    shown.front = some name ↔
      shown.isLabel = false ∧
        ∃ before offset size, position = before + 1 ∧
          changed.snapshot.entries[before]? = some (.label name offset size) := by
  obtain ⟨entry, address, -, -, rfl⟩ := shown_of_resolve reachable resolved shownFound
  rw [Payload.front_snapshot, Payload.isLabel_snapshot]
  constructor
  · intro carries
    split at carries
    · cases carries
    · rename_i content
      obtain ⟨before, label, rfl, labelFound, isLabel⟩ := labelNameBefore?_eq_some_iff.mp carries
      obtain ⟨labelAddress, -, labelShown⟩ :=
        snapshot_entries_of_resolve reachable resolved labelFound
      rw [isLabel] at labelShown
      exact ⟨Bool.eq_false_iff.mpr content, before, some labelAddress, 0, rfl, labelShown⟩
  · rintro ⟨content, before, labelOffset, labelSize, rfl, labelShown⟩
    obtain ⟨label, _, labelFound, -, isShown⟩ := shown_of_resolve reachable resolved labelShown
    rw [content, if_neg Bool.false_ne_true]
    exact labelNameBefore?_eq_some_iff.mpr
      ⟨before, label, rfl, labelFound, Payload.eq_label_of_snapshot isShown.symm⟩

theorem consistent_of_resolve (reachable : Reachable current)
    (resolved : current.resolve = (.ok size, changed)) : changed.snapshot.Consistent := by
  have sound := reachable.sound
  have sameBinding : changed.binding = current.binding := by
    rw [← current.resolve_binding, resolved]
  obtain ⟨fits, -, -⟩ := (resolve_ok_iff sound size changed).mp resolved
  constructor
  · intro shown member
    obtain ⟨position, shownFound⟩ := List.getElem?_of_mem member
    obtain ⟨entry, address, -, here, rfl⟩ := shown_of_resolve reachable resolved shownFound
    have atLeast : current.binding.low.toNat ≤ current.binding.origin.toNat := sound.low_le_origin
    have inFront := totalSize_take_le current.entries position
    rw [runningAt] at here
    refine ⟨address, Payload.offset_snapshot _ _ _, ?_, ?_⟩
    · change changed.binding.low ≤ address
      rw [sameBinding, UInt64.le_iff_toNat_le]
      omega
    · change address ≤ changed.binding.high
      rw [sameBinding, UInt64.le_iff_toNat_le]
      omega
  · intro shown shownFound
    obtain ⟨entry, address, -, here, rfl⟩ := shown_of_resolve reachable resolved shownFound
    have atOrigin : address = changed.binding.origin := by
      rw [sameBinding, ← UInt64.toNat_inj, here]
      rfl
    rw [Payload.offset_snapshot, atOrigin]
    rfl
  · intro position shown other shownFound otherFound
    obtain ⟨entry, address, found, here, rfl⟩ := shown_of_resolve reachable resolved shownFound
    obtain ⟨-, next, -, nextHere, rfl⟩ := shown_of_resolve reachable resolved otherFound
    refine ⟨address, next, Payload.offset_snapshot _ _ _, Payload.offset_snapshot _ _ _, ?_⟩
    rw [nextHere, runningAt_succ found, here, Payload.size_snapshot]
    rfl
  · intro position shown name shownFound
    exact front_iff_of_resolve reachable resolved shownFound name

/-- The snapshot shows every entry as it is, in the order of the section. -/
theorem forall₂_shows (current : Section) :
    List.Forall₂ (fun entry shown => shown.Shows entry.payload) current.entries
      current.snapshot.entries := by
  rw [snapshot, List.forall₂_map_right_iff, List.forall₂_same]
  intro entry _
  rw [entrySnapshot_eq]
  exact Payload.shows_snapshot _ _ _

/-- A label is stored as the processor sees it and shown where it stands in the image. -/
theorem shown_of_label (reachable : Reachable current)
    (resolved : current.resolve = (.ok size, changed)) {label : Entry}
    (found : changed.entries[position]? = some label) (isLabel : label.payload.isLabel = true) :
    ∃ shown offset, changed.snapshot.entries[position]? = some shown ∧
      shown.offset = some offset ∧ changed.snapshot.bankOffset ≤ offset ∧
      label.address = some ⟨.cpu, offset - changed.snapshot.bankOffset⟩ := by
  have sound := reachable.sound
  have sameBinding : changed.binding = current.binding := by
    rw [← current.resolve_binding, resolved]
  have shownFound : changed.snapshot.entries[position]? = some (changed.entrySnapshot label) := by
    rw [snapshot, List.getElem?_map, found, Option.map_some]
  obtain ⟨entry, address, entryFound, here, closed⟩ :=
    shown_of_resolve reachable resolved shownFound
  obtain ⟨running, runningHere, settled⟩ := getElem?_of_resolve sound resolved entryFound
  have sameAddress : running = address := by rw [← UInt64.toNat_inj, runningHere, here]
  rw [found, Option.some.injEq, sameAddress] at settled
  have atLeast : current.binding.origin ≤ address := by
    rw [UInt64.le_iff_toNat_le, here]
    exact Nat.le_add_right _ _
  refine ⟨_, address, shownFound, ?_, ?_, ?_⟩
  · rw [closed, Payload.offset_snapshot]
  · change changed.binding.bankOffset ≤ address
    rw [sameBinding]
    exact sound.bankOffset_le atLeast
  · change label.address = some ⟨.cpu, address - changed.binding.bankOffset⟩
    have entryIsLabel : entry.payload.isLabel = true := by
      rw [settled, Binding.settle_payload] at isLabel
      exact isLabel
    rw [settled, Binding.settle_address, Binding.addressAt, if_pos entryIsLabel, sameBinding]

/-- The snapshot of a freshly resolved section shows all entries in their order, makes sense
on its own, and leads back to the stored address of every label. -/
theorem snapshot_faithful (reachable : Reachable current)
    (resolved : current.resolve = (.ok size, changed)) :
    List.Forall₂ (fun entry shown => shown.Shows entry.payload) changed.entries
      changed.snapshot.entries ∧
    changed.snapshot.Consistent ∧
    ∀ (position : Nat) (label : Entry), changed.entries[position]? = some label →
      label.payload.isLabel = true →
      ∃ (shown : EntrySnapshot) (offset : UInt64),
        changed.snapshot.entries[position]? = some shown ∧ shown.offset = some offset ∧
        changed.snapshot.bankOffset ≤ offset ∧
        label.address = some ⟨.cpu, offset - changed.snapshot.bankOffset⟩ := by
  refine ⟨changed.forall₂_shows, consistent_of_resolve reachable resolved, ?_⟩
  intro position label found isLabel
  exact shown_of_label reachable resolved found isLabel

/-- Two labels of one name in a row, the second of which was put in after a pass, and a
label that is gone. -/
def namesakesRomx : Section :=
  (Edit.performAll emptyRomx
    [.append (.label "loop") 1, .append (.instruction "jr" 2) 2, .append (.label "end") 3,
      .append (.data (.ofValues [1, 2])) 4, .resolve, .remove 2, .insert (.label "loop") 1 5]).2

/-- The jump belongs to the second label, and the data to none. -/
theorem snapshot_faithful_namesakesRomx :
    ∃ changed, Reachable namesakesRomx ∧ namesakesRomx.resolve = (.ok 4, changed) ∧
      changed.snapshot.entries =
        [.label "loop" (some 0x8000) 0, .label "loop" (some 0x8000) 0,
          .placed (.instruction "jr") (some 0x8000) 2 (some "loop"),
          .placed (.dataBlock [1, 2]) (some 0x8002) 2 none] ∧
      changed.snapshot.Consistent ∧
      ∃ offset : UInt64, changed.snapshot.bankOffset ≤ offset ∧
        offset - changed.snapshot.bankOffset = 0x4000 := by
  have reachable : Reachable namesakesRomx := Reachable.emptyRomx.performAll _
  obtain ⟨-, consistent, labels⟩ :=
    @snapshot_faithful namesakesRomx namesakesRomx.resolve.2 4 reachable rfl
  obtain ⟨shown, offset, -, -, atLeast, stored⟩ := labels 1 _ rfl rfl
  have same := Option.some.inj (congrArg (Option.map Address.value) stored)
  exact ⟨_, reachable, rfl, rfl, consistent, offset, atLeast, same.symm⟩

end Section

end RomLayout
