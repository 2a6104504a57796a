import Mathlib.Order.Bounds.Defs
import RomLayout.Proofs.Capacity

set_option autoImplicit false

/-!
A pass that stops half way.

It stops at the first entry whose exact end leaves the bank. This entry and everything in
front of it stand where a pass that ends well would put them; everything behind it is as it
was before. The error names this entry and how far it would reach, cut off at the highest
address.
-/

namespace RomLayout

namespace Binding

/-- Behind the entry that does not fit nothing changes. -/
theorem drop_place_of_overflows {binding : Binding} (sound : binding.Sound) {running : UInt64}
    (inside : running ≤ binding.high) (pending : Option EntryId) {entries : List Entry}
    {position : Nat} {entry : Entry}
    (overflows : binding.Overflows running.toNat entries position entry) :
    (binding.place running pending entries).2.drop (position + 1) =
      entries.drop (position + 1) := by
  obtain ⟨found, fits, exceeds⟩ := overflows
  induction entries generalizing running pending position with
  | nil => simp at found
  | cons head rest inductionHypothesis =>
      obtain ⟨fails, goesOn⟩ := toNat_step sound running head.size
      rw [place_cons inside]
      rw [List.take_succ_cons, totalSize_cons] at exceeds
      cases position with
      | zero =>
          rw [List.take_zero, totalSize_nil, Nat.add_zero] at exceeds
          rw [if_pos (fails.mpr exceeds)]
          rfl
      | succ position =>
          rw [List.take_succ_cons, totalSize_cons] at fits
          have fitting : ¬binding.high < Address.saturatingAdd running head.size := by
            rw [fails]
            omega
          have next := goesOn fitting
          rw [if_neg fitting]
          exact inductionHypothesis (UInt64.not_lt.mp fitting) _ found (by omega) (by omega)

end Binding

namespace Section

variable {current changed : Section} {position : Nat} {entry : Entry} {error : Error}

namespace Overflows

theorem isLeast (overflows : current.Overflows position entry) :
    IsLeast {position | current.binding.high.toNat < current.runningAt (position + 1)}
      position := by
  refine ⟨overflows.exceeds, ?_⟩
  intro other exceeds
  apply Nat.le_of_not_lt
  intro earlier
  have exceedsEarlier : current.binding.high.toNat < current.runningAt (other + 1) := exceeds
  have inFront : totalSize (current.entries.take (other + 1)) ≤
      totalSize (current.entries.take position) := totalSize_take_mono current.entries earlier
  have fits := overflows.fits
  unfold runningAt at exceedsEarlier
  omega

/-- The pass comes to everything up to the entry that does not fit. -/
theorem places (overflows : current.Overflows position entry) (sound : current.binding.Sound)
    {earlier : Nat} (atMost : earlier ≤ position) {old : Entry}
    (found : current.entries[earlier]? = some old) :
    ∃ placed, current.placedEntries[earlier]? = some placed ∧
      current.Places earlier old placed := by
  have inFront := totalSize_take_mono current.entries atMost
  have fits := overflows.fits
  obtain ⟨address, here, placed⟩ :=
    Binding.getElem?_place sound sound.origin_le_high none found (by omega)
  exact ⟨_, placed, places_settle sound old here⟩

theorem untouched (overflows : current.Overflows position entry) (sound : current.binding.Sound)
    {later : Nat} (behind : position < later) :
    current.placedEntries[later]? = current.entries[later]? := by
  have same := Binding.drop_place_of_overflows sound sound.origin_le_high none overflows
  obtain ⟨distance, rfl⟩ := Nat.exists_eq_add_of_lt behind
  have here := congrArg (·[distance]?) same
  simp only [List.getElem?_drop] at here
  rwa [Nat.add_right_comm] at here

end Overflows

/-- A pass that stops has changed nothing but entries. -/
theorem changed_of_stopped (stopped : current.resolve = (.error error, changed)) :
    changed = { current with entries := current.placedEntries } := by
  unfold resolve at stopped
  split at stopped
  · simp at stopped
  · rename_i equation
    cases stopped
    rw [placedEntries, equation]

/-- What is told of the entry at a position: where it would end, cut off at the highest
address, and how far this is behind the bank. -/
structure Tells (current : Section) (position : Nat) (overflow : Overflow) : Prop where
  start : overflow.start = current.binding.bankOffset
  limit : overflow.limit = current.binding.high
  reached : overflow.reached.toNat = min (current.runningAt (position + 1)) (UInt64.size - 1)
  excess : overflow.limit.toNat + overflow.excess.toNat = overflow.reached.toNat
  positive : 0 < overflow.excess.toNat

theorem tells_of_overflows (sound : current.binding.Sound)
    (overflows : current.Overflows position entry) {reached : UInt64}
    (ends : reached.toNat = min (current.runningAt (position + 1)) (UInt64.size - 1)) :
    current.Tells position
      { excess := reached - current.binding.high, start := current.binding.bankOffset,
        limit := current.binding.high, reached } := by
  have exceeds : current.binding.high.toNat < current.runningAt (position + 1) := overflows.exceeds
  have small := sound.high_le_limit
  unfold Region.windowLimit at small
  have top : UInt64.size = 2 ^ 64 := rfl
  have behind : current.binding.high ≤ reached := by
    rw [UInt64.le_iff_toNat_le]
    omega
  have distance := UInt64.toNat_sub_of_le _ _ behind
  exact ⟨rfl, rfl, ends, by dsimp only; omega, by dsimp only; omega⟩

theorem resolve_error_iff (sound : current.binding.Sound) :
    (∃ error, current.resolve.1 = .error error) ↔
      ∃ position, current.binding.high.toNat < current.runningAt (position + 1) := by
  constructor
  · rintro ⟨error, failed⟩
    obtain ⟨position, entry, reached, overflows, -, -⟩ :=
      exists_overflows_of_resolve sound failed
    exact ⟨position, overflows.exceeds⟩
  · rintro ⟨position, exceeds⟩
    cases outcome : current.resolve.1 with
    | error error => exact ⟨error, rfl⟩
    | ok size =>
        have fits := ((resolve_ok_iff sound size _).mp (Prod.ext outcome rfl)).1
        have inFront := totalSize_take_le current.entries (position + 1)
        unfold runningAt at exceeds
        omega

/-- Resolving stops exactly if some entry would end behind the bank, and the first such entry
is the one that is reported. Up to it, it counted in, all entries are placed as they should
be; the entries behind it and all else of the section stay as they were. -/
theorem resolve_stops_exact {current : Section} (reachable : Reachable current) :
    ((∃ error, current.resolve.1 = .error error) ↔
      ∃ position, current.binding.high.toNat < current.runningAt (position + 1)) ∧
    ∀ error changed, current.resolve = (.error error, changed) →
      ∃ position entry overflow,
        current.entries[position]? = some entry ∧
        IsLeast {position | current.binding.high.toNat < current.runningAt (position + 1)}
          position ∧
        error = .sectionOverflow ⟨current.binding.file, entry.index⟩ overflow ∧
        current.Tells position overflow ∧
        (∀ earlier old, earlier ≤ position → current.entries[earlier]? = some old →
          ∃ placed, changed.entries[earlier]? = some placed ∧
            current.Places earlier old placed) ∧
        (∀ later, position < later → changed.entries[later]? = current.entries[later]?) ∧
        changed = { current with entries := changed.entries } := by
  have sound := reachable.sound
  refine ⟨resolve_error_iff sound, ?_⟩
  intro error changed stopped
  obtain ⟨position, entry, reached, overflows, ends, rfl⟩ :=
    exists_overflows_of_resolve sound (congrArg Prod.fst stopped)
  obtain rfl := changed_of_stopped stopped
  refine ⟨position, entry, _, overflows.found, overflows.isLeast, rfl,
    tells_of_overflows sound overflows ends, ?_, ?_, rfl⟩
  · intro earlier old atMost found
    exact overflows.places sound atMost found
  · intro later behind
    exact overflows.untouched sound behind

/-- A block that reaches the highest address stands between an empty one and a label, and the
entries behind it have addresses from an earlier pass. -/
def cappedRomx : Section :=
  (Edit.performAll emptyRomx
    [.append (.label "start") 1, .append (.data (.reserve 0)) 2, .append (.instruction "jp" 3) 3,
      .append (.label "end") 4, .append (.instruction "ret" 1) 5, .resolve,
      .insert (.data (.reserve 0xFFFFFFFFFFFFFFFF)) 2 6, .insert (.label "block") 2 7]).2

/-- The end of the block is cut off, and what stands behind the block keeps its old place. -/
theorem resolve_stops_exact_cappedRomx :
    Reachable cappedRomx ∧ ∃ error changed overflow,
      cappedRomx.resolve = (.error error, changed) ∧
      error = .sectionOverflow ⟨"main.gbc", 6⟩ overflow ∧
      overflow.reached.toNat = UInt64.size - 1 ∧
      overflow.excess.toNat = UInt64.size - 1 - 0xC000 ∧
      changed.entries.drop 4 = cappedRomx.entries.drop 4 ∧
      changed.entries.map (·.address) =
        [some ⟨.cpu, 0x4000⟩, some ⟨.physical, 0x8000⟩, some ⟨.cpu, 0x4000⟩,
          some ⟨.physical, 0x8000⟩, some ⟨.physical, 0x8000⟩, some ⟨.cpu, 0x4003⟩,
          some ⟨.physical, 0x8003⟩] := by
  have reachable : Reachable cappedRomx := Reachable.emptyRomx.performAll _
  obtain ⟨-, stops⟩ := resolve_stops_exact reachable
  have addresses : cappedRomx.resolve.2.entries.map (·.address) =
      [some ⟨.cpu, 0x4000⟩, some ⟨.physical, 0x8000⟩, some ⟨.cpu, 0x4000⟩,
        some ⟨.physical, 0x8000⟩, some ⟨.physical, 0x8000⟩, some ⟨.cpu, 0x4003⟩,
        some ⟨.physical, 0x8003⟩] := rfl
  have fails : cappedRomx.resolve.1 = .error (.sectionOverflow ⟨"main.gbc", 6⟩
      ⟨0xFFFFFFFFFFFF3FFF, 0x4000, 0xC000, 0xFFFFFFFFFFFFFFFF⟩) := rfl
  rcases stopped : cappedRomx.resolve with ⟨outcome, changed⟩
  rw [stopped] at addresses fails
  subst fails
  obtain ⟨position, entry, overflow, -, first, -, -, -, untouched, -⟩ := stops _ changed stopped
  have atMost : position ≤ 3 := first.2 (by decide : _ < cappedRomx.runningAt (3 + 1))
  refine ⟨reachable, _, changed, _, rfl, rfl, rfl, rfl, ?_, addresses⟩
  · apply List.ext_getElem?
    intro distance
    rw [List.getElem?_drop, List.getElem?_drop]
    exact untouched (4 + distance) (by omega)

end Section

end RomLayout
