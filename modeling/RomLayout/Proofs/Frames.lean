import RomLayout.Proofs.Entries

set_option autoImplicit false

/-!
The two frames of addresses in every state of a section, resolved or stale.

Whatever address an entry carries, some pass gave it, and a pass gives addresses
between the origin and the end of the bank only. In this range the distance between
the frames can be added and taken away without leaving the numbers of 64 bits.
-/

namespace RomLayout

namespace Address

theorem sub?_of_le {left right : UInt64} (atMost : right ≤ left) :
    sub? left right = some (left - right) := by
  rw [sub?, if_pos atMost]

theorem add?_sub_of_le {left right : UInt64} (atMost : right ≤ left) :
    add? (left - right) right = some left := by
  have atMostNat : right.toNat ≤ left.toNat := atMost
  have small := UInt64.toNat_lt left
  rw [add?, UInt64.toNat_sub_of_le _ _ atMost, if_pos (by simp only [UInt64.size]; omega),
    UInt64.sub_add_cancel]

end Address

namespace Binding

/-- The address that a pass gives to an entry at `running`. -/
def addressAt (binding : Binding) (entry : Entry) (running : UInt64) : Address :=
  if entry.payload.isLabel then ⟨.cpu, running - binding.bankOffset⟩ else ⟨.physical, running⟩

theorem settle_address (binding : Binding) (running : UInt64) (pending : Option EntryId)
    (entry : Entry) :
    (binding.settle running pending entry).address = some (binding.addressAt entry running) := by
  unfold settle addressAt
  split <;> rfl

/-- If the entry has an address, it is one that a pass gives inside the bank. -/
def Addressed (binding : Binding) (entry : Entry) : Prop :=
  ∀ address, entry.address = some address →
    ∃ running, binding.origin ≤ running ∧ running ≤ binding.high ∧
      address = binding.addressAt entry running

theorem Addressed.of_leaves {binding : Binding} {entry placed : Entry}
    (addressed : binding.Addressed entry) (leaves : binding.Leaves binding.origin entry placed) :
    binding.Addressed placed := by
  cases leaves with
  | untouched => exact addressed
  | settled running pending atLeast atMost =>
      intro address found
      rw [settle_address] at found
      cases found
      exact ⟨running, atLeast, atMost, by simp [addressAt]⟩

namespace Sound

variable {binding : Binding} {running : UInt64}

theorem bankOffset_le (sound : binding.Sound) (atLeast : binding.origin ≤ running) :
    binding.bankOffset ≤ running :=
  UInt64.le_trans (UInt64.le_iff_toNat_le.mpr sound.bankOffset_le_origin) atLeast

/-- Either frame can be reached from either kind of entry. -/
theorem to?_addressAt (sound : binding.Sound) (atLeast : binding.origin ≤ running) (entry : Entry) :
    (binding.addressAt entry running).to? .physical binding.bankOffset = some running ∧
      (binding.addressAt entry running).to? .cpu binding.bankOffset =
        some (running - binding.bankOffset) := by
  have mapped := sound.bankOffset_le atLeast
  unfold addressAt
  split
  · exact ⟨Address.add?_sub_of_le mapped, rfl⟩
  · exact ⟨rfl, Address.sub?_of_le mapped⟩

theorem toNat_sub_bankOffset (sound : binding.Sound) (atLeast : binding.origin ≤ running) :
    running.toNat = (running - binding.bankOffset).toNat + binding.bankOffset.toNat := by
  have mapped : binding.bankOffset.toNat ≤ running.toNat := sound.bankOffset_le atLeast
  rw [UInt64.toNat_sub_of_le _ _ (sound.bankOffset_le atLeast)]
  omega

/-- Seen by the processor, every bank stands in the one window of its region. -/
theorem cpu_mem_window (sound : binding.Sound) (atLeast : binding.origin ≤ running)
    (atMost : running ≤ binding.high) :
    binding.region.base.toNat ≤ (running - binding.bankOffset).toNat ∧
      (running - binding.bankOffset).toNat ≤
        binding.region.base.toNat + binding.region.size.toNat := by
  have split := sound.toNat_sub_bankOffset atLeast
  have low := sound.toNat_low
  have high := sound.toNat_high
  have lowAtMost : binding.low.toNat ≤ binding.origin.toNat := sound.low_le_origin
  have atLeastNat : binding.origin.toNat ≤ running.toNat := atLeast
  have atMostNat : running.toNat ≤ binding.high.toNat := atMost
  omega

end Sound

end Binding

theorem Reachable.addressed {current : Section} (reachable : Reachable current) :
    ∀ entry ∈ current.entries, current.binding.Addressed entry := by
  apply reachable.forall_entries (motive := Binding.Addressed)
  · intro binding entry noAddress noLabel address found
    rw [noAddress] at found
    cases found
  · intro binding entry placed sound addressed leaves
    exact addressed.of_leaves leaves

namespace Section

variable {current : Section}

theorem Identified.offset?_eq (identified : current.Identified) {entry : Entry}
    (member : entry ∈ current.entries) (frame : Frame) :
    current.offset? frame entry.id = entry.offset? frame current.binding.bankOffset := by
  rw [offset?, identified.entry?_eq member, Option.bind_some]

/-- In every reachable state an entry with an address has it in the frame of its
kind, both of its offsets are known, and they stand in the bank and in the window of
the region. An entry without an address has no offset. -/
theorem frames_sound {current : Section} (reachable : Reachable current) :
    ∀ entry ∈ current.entries,
      (∀ address, entry.address = some address →
        ∃ cpu physical,
          address = (if entry.payload.isLabel then ⟨.cpu, cpu⟩ else ⟨.physical, physical⟩) ∧
          current.offset? .cpu entry.id = some cpu ∧
          current.offset? .physical entry.id = some physical ∧
          physical.toNat = cpu.toNat + current.binding.bankOffset.toNat ∧
          current.binding.origin ≤ physical ∧ physical ≤ current.binding.high ∧
          current.binding.region.base.toNat ≤ cpu.toNat ∧
          cpu.toNat ≤ current.binding.region.base.toNat + current.binding.region.size.toNat) ∧
      (entry.address = none → ∀ frame, current.offset? frame entry.id = none) := by
  have sound := reachable.sound
  intro entry member
  have offset := reachable.identified.offset?_eq member
  constructor
  · intro address found
    obtain ⟨running, atLeast, atMost, rfl⟩ := reachable.addressed entry member address found
    obtain ⟨physical, cpu⟩ := sound.to?_addressAt atLeast entry
    refine ⟨running - current.binding.bankOffset, running, rfl, ?_, ?_,
      sound.toNat_sub_bankOffset atLeast, atLeast, atMost, sound.cpu_mem_window atLeast atMost⟩
    · rw [offset, Entry.offset?, found]
      exact cpu
    · rw [offset, Entry.offset?, found]
      exact physical
  · intro missing frame
    rw [offset, Entry.offset?, missing]
    rfl

/-- A pass that stopped at a block of 64 KiB, and a label put in behind it. -/
def overfullRomx : Section :=
  (Edit.performAll emptyRomx
    [.append (.label "start") 1, .append (.instruction "jp" 3) 2,
      .append (.data (.reserve 0x10000)) 3, .resolve, .insert (.label "end") 3 4]).2

/-- The block that does not fit keeps an address in both frames. -/
theorem frames_sound_overfullRomx :
    Reachable overfullRomx ∧ (∃ error, overfullRomx.resolve.1 = .error error) ∧
      overfullRomx.entries.map (·.address) =
        [some ⟨.cpu, 0x4000⟩, some ⟨.physical, 0x8000⟩, some ⟨.physical, 0x8003⟩, none] ∧
      (∃ cpu physical, overfullRomx.offset? .cpu 2 = some cpu ∧
        overfullRomx.offset? .physical 2 = some physical ∧
        physical.toNat = cpu.toNat + 0x4000 ∧ 0x8000 ≤ physical ∧ physical ≤ 0xC000) ∧
      ∀ frame, overfullRomx.offset? frame 3 = none := by
  have reachable : Reachable overfullRomx := Reachable.emptyRomx.performAll _
  have block := frames_sound reachable
    ⟨2, .data (.reserve 0x10000), 3, some ⟨.physical, 0x8003⟩, none⟩ (by decide)
  have behind := frames_sound reachable ⟨3, .label "end", 4, none, none⟩ (by decide)
  obtain ⟨cpu, physical, -, cpuOffset, physicalOffset, distance, atLeast, atMost, -⟩ :=
    block.1 _ rfl
  exact ⟨reachable, ⟨_, rfl⟩, by decide,
    ⟨cpu, physical, cpuOffset, physicalOffset, distance, atLeast, atMost⟩, behind.2 rfl⟩

end Section

end RomLayout
