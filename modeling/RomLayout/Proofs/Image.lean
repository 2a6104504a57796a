import Mathlib.Data.Nat.SuccPred
import Mathlib.Order.CompletePartialOrder
import Mathlib.Order.SuccPred.IntervalSucc
import RomLayout.Snapshot.Basic
import RomLayout.Proofs.Building
import RomLayout.Proofs.Overlap

set_option autoImplicit false

/-!
The image that the snapshots of a layout describe: no byte of it is written twice,
and none outside the bank that owns it.

Two entries of one section are kept apart by the running address, two sections of one
bank by the overlap check, and two read-only banks by their windows.
-/

namespace RomLayout

namespace Region

/-- The part of the image that a read-only bank owns, up to but without the second
address. -/
def romRange? : Region → UInt64 → Option (Nat × Nat)
  | rom0, _ => some (0, 0x4000)
  | romx, bank => some (bank.toNat * 0x4000, (bank.toNat + 1) * 0x4000)
  | wram0, _ | wramx, _ | hram, _ | ram, _ | ramx, _ => none

theorem romRange?_apart {left right : Region} {leftBank rightBank : UInt64}
    (leftHasBank : left.HasBank leftBank) (rightHasBank : right.HasBank rightBank)
    (different : ¬(left = right ∧ leftBank = rightBank)) {first second : Nat × Nat}
    (leftRange : left.romRange? leftBank = some first)
    (rightRange : right.romRange? rightBank = some second) :
    first.2 ≤ second.1 ∨ second.2 ≤ first.1 := by
  have leftLeast : left.defaultBank.toNat ≤ leftBank.toNat := leftHasBank.1
  have leftMost : leftBank.toNat ≤ left.maxBank.toNat := leftHasBank.2
  have rightLeast : right.defaultBank.toNat ≤ rightBank.toNat := rightHasBank.1
  have rightMost : rightBank.toNat ≤ right.maxBank.toNat := rightHasBank.2
  rw [← UInt64.toNat_inj] at different
  cases left
  case rom0 =>
    cases leftRange
    have zero : leftBank.toNat = 0 := Nat.le_zero.mp leftMost
    cases right
    case rom0 =>
      have same : rightBank.toNat = 0 := Nat.le_zero.mp rightMost
      exact absurd ⟨rfl, zero.trans same.symm⟩ different
    case romx =>
      cases rightRange
      have first : 1 ≤ rightBank.toNat := rightLeast
      dsimp only
      omega
    all_goals cases rightRange
  case romx =>
    cases leftRange
    have first : 1 ≤ leftBank.toNat := leftLeast
    cases right
    case rom0 =>
      cases rightRange
      dsimp only
      omega
    case romx =>
      cases rightRange
      have bankDiffers : leftBank.toNat ≠ rightBank.toNat := fun same => different ⟨rfl, same⟩
      dsimp only
      omega
    all_goals cases rightRange
  all_goals cases leftRange

end Region

/-- The window of a read-only bank is what the bank owns of the image. -/
theorem Binding.Sound.romRange? {binding : Binding} (sound : binding.Sound)
    (readOnly : binding.region.storage = .readOnly) :
    binding.region.romRange? binding.bank = some (binding.low.toNat, binding.high.toNat) := by
  have low := Region.toNat_windowLow sound.hasBank
  have high := sound.toNat_high
  have atLeast : binding.region.defaultBank.toNat ≤ binding.bank.toNat := sound.hasBank.1
  change binding.low.toNat = _ at low
  cases region : binding.region
  all_goals rw [region] at low high readOnly atLeast
  case rom0 | romx =>
    simp only [Region.base, Region.bankDistance, Region.banking, UInt64.reduceToNat] at low
    simp only [Region.size, UInt64.reduceToNat] at high
    simp only [Region.defaultBank, Region.isBanked, Region.banking, Option.isSome, if_true,
      UInt64.reduceToNat] at atLeast
    simp only [Region.romRange?, Option.some.injEq, Prod.mk.injEq]
    omega
  all_goals cases readOnly

namespace EntrySnapshot

def isLabel : EntrySnapshot → Bool
  | label .. => true
  | placed .. => false

/-- The bytes of the image that an entry takes; none without an offset. -/
def bytes (entry : EntrySnapshot) : Set Nat :=
  match entry.offset with
  | some first => Set.Ico first.toNat (first.toNat + entry.size.toNat)
  | none => ∅

end EntrySnapshot

/-- In the snapshots of a layout, `entry` stands at a position of `owner`, which is
the section of this number, and it is no label. -/
structure ContentAt (snapshots : List SectionSnapshot) (number position : Nat)
    (owner : SectionSnapshot) (entry : EntrySnapshot) : Prop where
  ownerFound : snapshots[number]? = some owner
  entryFound : owner.entries[position]? = some entry
  content : entry.isLabel = false

namespace Section

variable {current : Section}

@[simp] theorem isLabel_entrySnapshot (current : Section) (entry : Entry) :
    (current.entrySnapshot entry).isLabel = entry.payload.isLabel := by
  unfold entrySnapshot
  cases entry.payload <;> rfl

@[simp] theorem offset_entrySnapshot (current : Section) (entry : Entry) :
    (current.entrySnapshot entry).offset = entry.offset? .physical current.binding.bankOffset := by
  unfold entrySnapshot
  cases entry.payload <;> rfl

@[simp] theorem size_entrySnapshot (current : Section) (entry : Entry) :
    (current.entrySnapshot entry).size = entry.size := by
  unfold entrySnapshot
  cases entry.payload <;> rfl

theorem runningAt_mono (current : Section) : Monotone current.runningAt :=
  fun _ _ atMost => Nat.add_le_add_left (totalSize_take_mono current.entries atMost) _

theorem runningAt_succ {position : Nat} {entry : Entry}
    (found : current.entries[position]? = some entry) :
    current.runningAt (position + 1) = current.runningAt position + entry.size.toNat := by
  rw [runningAt, totalSize_take_succ found, ← Nat.add_assoc, runningAt]

/-- The bytes from one entry to the next. -/
def entryBytes (current : Section) (position : Nat) : Set Nat :=
  Set.Ico (current.runningAt position) (current.runningAt (position + 1))

theorem disjoint_entryBytes (current : Section) {first second : Nat} (different : first ≠ second) :
    Disjoint (current.entryBytes first) (current.entryBytes second) :=
  current.runningAt_mono.pairwise_disjoint_on_Ico_succ different

/-- A snapshot that stands where the sizes of the entries in front of it end. -/
structure Stands (current : Section) (position : Nat) (entry : EntrySnapshot) (first : UInt64) :
    Prop where
  offset : entry.offset = some first
  start : first.toNat = current.runningAt position
  stop : first.toNat + entry.size.toNat = current.runningAt (position + 1)

theorem Stands.bytes_eq {position : Nat} {entry : EntrySnapshot} {first : UInt64}
    (stands : current.Stands position entry first) : entry.bytes = current.entryBytes position := by
  unfold EntrySnapshot.bytes entryBytes
  rw [stands.offset]
  dsimp only
  rw [stands.stop, stands.start]

namespace Settled

variable {size : UInt64}

theorem runningAt_le (settled : current.Settled size) (position : Nat) :
    current.runningAt position ≤ current.binding.origin.toNat + size.toNat := by
  rw [(settled.reachable.recorded settled.recorded).1]
  exact Nat.add_le_add_left (totalSize_take_le current.entries position) _

theorem runningAt_le_high (settled : current.Settled size) (position : Nat) :
    current.runningAt position ≤ current.binding.high.toNat :=
  Nat.le_trans (settled.runningAt_le position)
    (settled.reachable.recorded settled.recorded).2

theorem low_le_runningAt (settled : current.Settled size) (position : Nat) :
    current.binding.low.toNat ≤ current.runningAt position :=
  Nat.le_trans settled.reachable.sound.low_le_origin (Nat.le_add_right _ _)

theorem entryBytes_subset (settled : current.Settled size) (position : Nat) :
    current.entryBytes position ⊆ current.bytes := by
  intro byte
  rintro ⟨low, high⟩
  have atMost := settled.runningAt_le (position + 1)
  have atLeast : current.binding.origin.toNat ≤ current.runningAt position := Nat.le_add_right _ _
  rw [bytes, settled.recorded]
  exact ⟨by omega, by omega⟩

theorem bytes_subset (settled : current.Settled size) :
    current.bytes ⊆ Set.Ico current.binding.low.toNat current.binding.high.toNat := by
  intro byte
  rw [bytes, settled.recorded]
  rintro ⟨low, high⟩
  have atLeast : current.binding.low.toNat ≤ current.binding.origin.toNat :=
    settled.reachable.sound.low_le_origin
  have fits := (settled.reachable.recorded settled.recorded).2
  exact ⟨by omega, by omega⟩

/-- Content stands where the sizes in front of it end. -/
theorem stands (settled : current.Settled size) {position : Nat} {entry : Entry}
    (found : current.entries[position]? = some entry) (content : entry.payload.isLabel = false) :
    ∃ first, current.Stands position (current.entrySnapshot entry) first := by
  obtain ⟨placed, placedFound, places⟩ := places_of_resolve settled.reachable.sound
    (settled.reachable.fresh size settled.recorded) found
  rw [found] at placedFound
  cases placedFound
  obtain ⟨first, shape, here⟩ := places.content content
  have address : entry.address = some ⟨.physical, first⟩ := congrArg Entry.address shape
  refine ⟨first, ?_, here, ?_⟩
  · rw [offset_entrySnapshot, Entry.offset?, address]
    rfl
  · rw [size_entrySnapshot, runningAt_succ found, here]

end Settled

theorem disjoint_bytes_of_bank_ne {left right : Section} {leftSize rightSize : UInt64}
    (leftSettled : left.Settled leftSize) (rightSettled : right.Settled rightSize)
    (leftReadOnly : left.binding.region.storage = .readOnly)
    (rightReadOnly : right.binding.region.storage = .readOnly)
    (different : ¬(left.binding.region = right.binding.region ∧
      left.binding.bank = right.binding.bank)) : Disjoint left.bytes right.bytes := by
  have leftSound := leftSettled.reachable.sound
  have rightSound := rightSettled.reachable.sound
  have apart := Region.romRange?_apart leftSound.hasBank rightSound.hasBank different
    (leftSound.romRange? leftReadOnly) (rightSound.romRange? rightReadOnly)
  rw [Set.disjoint_left]
  intro byte inLeft inRight
  have inLeftWindow := leftSettled.bytes_subset inLeft
  have inRightWindow := rightSettled.bytes_subset inRight
  simp only [Set.mem_Ico] at inLeftWindow inRightWindow apart
  omega

theorem disjoint_bytes_of_checkOverlaps {sections : List Section}
    (reachable : ∀ current ∈ sections, Reachable current)
    (apart : checkOverlaps sections = .ok ()) {first second : Nat} {left right : Section}
    (leftFound : sections[first]? = some left) (rightFound : sections[second]? = some right)
    (different : first ≠ second) (sameRegion : left.binding.region = right.binding.region)
    (sameBank : left.binding.bank = right.binding.bank) : Disjoint left.bytes right.bytes := by
  rw [checkOverlaps_ok_iff reachable, pairwise_iff_not_collision] at apart
  rw [Set.disjoint_left]
  intro byte inLeft inRight
  obtain ⟨earlier, later, collision⟩ := Collision.of_overlaps different leftFound rightFound
    ⟨sameRegion, sameBank, byte, inLeft, inRight⟩
  exact apart earlier later collision

theorem disjoint_entryBytes_of_checkOverlaps {sections : List Section}
    (settled : ∀ current ∈ sections, ∃ size, current.Settled size)
    (apart : checkOverlaps sections = .ok ()) {first second firstPosition secondPosition : Nat}
    {left right : Section} (leftFound : sections[first]? = some left)
    (rightFound : sections[second]? = some right)
    (different : (first, firstPosition) ≠ (second, secondPosition))
    (comparable :
      (left.binding.region.storage = .readOnly ∧ right.binding.region.storage = .readOnly) ∨
      (left.binding.region = right.binding.region ∧ left.binding.bank = right.binding.bank)) :
    Disjoint (left.entryBytes firstPosition) (right.entryBytes secondPosition) := by
  obtain ⟨leftSize, leftSettled⟩ := settled left (List.mem_of_getElem? leftFound)
  obtain ⟨rightSize, rightSettled⟩ := settled right (List.mem_of_getElem? rightFound)
  -- One section, two sections of one bank, and two banks are kept apart by different means.
  by_cases sameSection : first = second
  · subst sameSection
    rw [leftFound] at rightFound
    cases rightFound
    apply left.disjoint_entryBytes
    intro samePosition
    exact different (congrArg (Prod.mk first) samePosition)
  · apply Set.disjoint_of_subset (leftSettled.entryBytes_subset _)
      (rightSettled.entryBytes_subset _)
    by_cases sameBank : left.binding.region = right.binding.region ∧
        left.binding.bank = right.binding.bank
    · apply disjoint_bytes_of_checkOverlaps _ apart leftFound rightFound sameSection
        sameBank.1 sameBank.2
      intro current member
      obtain ⟨size, isSettled⟩ := settled current member
      exact isSettled.reachable
    · rcases comparable with ⟨leftReadOnly, rightReadOnly⟩ | sameBank'
      · exact disjoint_bytes_of_bank_ne leftSettled rightSettled leftReadOnly rightReadOnly sameBank
      · exact absurd sameBank' sameBank

end Section

theorem ContentAt.stands {sections : List Section}
    (settled : ∀ current ∈ sections, ∃ size, current.Settled size) {number position : Nat}
    {owner : SectionSnapshot} {entry : EntrySnapshot}
    (place : ContentAt (sections.map Section.snapshot) number position owner entry) :
    ∃ current first, sections[number]? = some current ∧ current.snapshot = owner ∧
      current.Stands position entry first := by
  obtain ⟨ownerFound, entryFound, content⟩ := place
  rw [List.getElem?_map, Option.map_eq_some_iff] at ownerFound
  obtain ⟨current, found, rfl⟩ := ownerFound
  simp only [Section.snapshot, List.getElem?_map, Option.map_eq_some_iff] at entryFound
  obtain ⟨inner, innerFound, rfl⟩ := entryFound
  rw [Section.isLabel_entrySnapshot] at content
  obtain ⟨size, isSettled⟩ := settled current (List.mem_of_getElem? found)
  obtain ⟨first, stands⟩ := isSettled.stands innerFound content
  exact ⟨current, first, found, rfl, stands⟩

theorem Section.storage_of_snapshot {current : Section}
    (readOnly : current.snapshot.writeable = false) :
    current.binding.region.storage = .readOnly := by
  cases storage : current.binding.region.storage with
  | readOnly => rfl
  | readWrite => simp [snapshot, isReadWrite, storage] at readOnly

/-- A layout that is built, resolved and found free of overlaps describes a safe
image. Content of read-only sections stands in the part of the image that the bank
owns, and no byte is described twice. In memory that is written at run time, no byte
of one bank is described twice. -/
theorem image_safe {description : Description} {files : Lookup} {directory base : Path}
    {layout resolved : Layout} {total : UInt64}
    (built : description.build files directory base = .ok layout)
    (resolves : layout.resolve = (.ok total, resolved))
    (apart : resolved.checkOverlaps = .ok ()) :
    (∀ number position owner entry,
      ContentAt resolved.snapshots number position owner entry →
      ∃ first, entry.offset = some first ∧
        (owner.writeable = false → ∃ low high,
          owner.region.romRange? owner.bank = some (low, high) ∧
          low ≤ first.toNat ∧ first.toNat + entry.size.toNat ≤ high)) ∧
    ∀ first firstPosition left leftEntry second secondPosition right rightEntry,
      ContentAt resolved.snapshots first firstPosition left leftEntry →
      ContentAt resolved.snapshots second secondPosition right rightEntry →
      (first, firstPosition) ≠ (second, secondPosition) →
      (left.writeable = false ∧ right.writeable = false) ∨
        (left.region = right.region ∧ left.bank = right.bank) →
      Disjoint leftEntry.bytes rightEntry.bytes := by
  have settled := Layout.settled_of_resolve (Description.reachable_of_build built) resolves
  constructor
  · intro number position owner entry place
    obtain ⟨current, first, found, rfl, stands⟩ := place.stands settled
    obtain ⟨size, isSettled⟩ := settled current (List.mem_of_getElem? found)
    refine ⟨first, stands.offset, ?_⟩
    intro readOnly
    have sound := isSettled.reachable.sound
    refine ⟨_, _, sound.romRange? (Section.storage_of_snapshot readOnly), ?_, ?_⟩
    · rw [stands.start]
      exact isSettled.low_le_runningAt position
    · rw [stands.stop]
      exact isSettled.runningAt_le_high (position + 1)
  · intro first firstPosition left leftEntry second secondPosition right rightEntry
      leftPlace rightPlace different comparable
    obtain ⟨leftSection, leftFirst, leftFound, rfl, leftStands⟩ := leftPlace.stands settled
    obtain ⟨rightSection, rightFirst, rightFound, rfl, rightStands⟩ := rightPlace.stands settled
    rw [leftStands.bytes_eq, rightStands.bytes_eq]
    apply Section.disjoint_entryBytes_of_checkOverlaps settled apart leftFound rightFound different
    rcases comparable with ⟨leftReadOnly, rightReadOnly⟩ | sameBank
    · exact .inl ⟨Section.storage_of_snapshot leftReadOnly,
        Section.storage_of_snapshot rightReadOnly⟩
    · exact .inr sameBank

/-- Two files that share bank 1 of ROMX, with a section in ROM0 and a variable. -/
def Description.twoFiles : Description where
  files :=
    [{ name := "main.gbc"
       sections :=
        [("Reset", ⟨"ROM0", none, none, [.label "reset", .instruction "jp" 3]⟩),
          ("Main", ⟨"ROMX", none, some 0x4004, [.binary (Path.ofString "tiles.bin")]⟩),
          ("Vars", ⟨"WRAM0", none, none, [.slot 2]⟩)] },
     { name := "data.gbc"
       sections := [("Data", ⟨"ROMX", some 1, none, [.label "data", .data [1, 2] (some 4)]⟩)] }]

/-- The included file starts on the byte behind the data block. -/
theorem image_safe_twoFiles :
    ∃ layout resolved main data,
      Description.twoFiles.build (fun _ => .ok (.file [1, 2, 3])) .empty .empty = .ok layout ∧
      layout.resolve = (.ok 12, resolved) ∧ resolved.checkOverlaps = .ok () ∧
      ContentAt resolved.snapshots 1 0 main
        (.placed (.binary (Path.ofString "tiles.bin")) (some 0x4004) 3 none) ∧
      ContentAt resolved.snapshots 3 1 data
        (.placed (.dataBlock [1, 2]) (some 0x4000) 4 (some "data")) ∧
      Disjoint (Set.Ico 0x4004 0x4007) (Set.Ico 0x4000 0x4004) := by
  refine ⟨_, _, _, _, rfl, rfl, rfl, ⟨rfl, rfl, rfl⟩, ⟨rfl, rfl, rfl⟩, ?_⟩
  obtain ⟨-, disjoint⟩ := @image_safe Description.twoFiles (fun _ => .ok (.file [1, 2, 3]))
    .empty .empty _ _ _ rfl rfl rfl
  exact disjoint 1 0 _ _ 3 1 _ _ ⟨rfl, rfl, rfl⟩ ⟨rfl, rfl, rfl⟩ (by decide) (.inl ⟨rfl, rfl⟩)

end RomLayout
