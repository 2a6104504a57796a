import RomLayout.Proofs.Resolution

set_option autoImplicit false

/-!
What a bank has room for.

Resolving stops at the first entry that the bank has no room for: everything in front of
it fits, and with it the exact sizes leave the bank. A pass that ends well has found no
more than 16 KiB, whatever the region.
-/

namespace RomLayout

/-- The room of the largest banks. -/
def Region.roomLimit : Nat := 0x4000

theorem Region.size_le_roomLimit (region : Region) : region.size.toNat ≤ roomLimit := by
  cases region <;> decide

namespace Binding

/-- Of entries placed from `first` on, the one at a position is the first that does not fit. -/
structure Overflows (binding : Binding) (first : Nat) (entries : List Entry) (position : Nat)
    (entry : Entry) : Prop where
  found : entries[position]? = some entry
  fits : first + totalSize (entries.take position) ≤ binding.high.toNat
  exceeds : binding.high.toNat < first + totalSize (entries.take (position + 1))

theorem Overflows.cons {binding : Binding} {first position : Nat} {head entry : Entry}
    {rest : List Entry}
    (overflows : binding.Overflows (first + head.size.toNat) rest position entry) :
    binding.Overflows first (head :: rest) (position + 1) entry := by
  obtain ⟨found, fits, exceeds⟩ := overflows
  rw [Nat.add_assoc] at fits exceeds
  exact ⟨found, fits, exceeds⟩

/-- A pass that fails reports the first entry that does not fit, and where it would end. -/
theorem exists_overflows_of_place {binding : Binding} (sound : binding.Sound) {running : UInt64}
    (inside : running ≤ binding.high) {pending : Option EntryId} {entries : List Entry}
    {error : Error} (failed : (binding.place running pending entries).1 = .error error) :
    ∃ position entry reached,
      binding.Overflows running.toNat entries position entry ∧
      reached.toNat =
        min (running.toNat + totalSize (entries.take (position + 1))) (UInt64.size - 1) ∧
      error = binding.overflowAt entry reached := by
  induction entries generalizing running pending with
  | nil => cases failed
  | cons head rest inductionHypothesis =>
      obtain ⟨fails, goesOn⟩ := toNat_step sound running head.size
      rw [place_cons inside] at failed
      by_cases behind : binding.high < Address.saturatingAdd running head.size
      · rw [if_pos behind] at failed
        cases failed
        refine ⟨0, head, _, ⟨rfl, inside, ?_⟩, ?_, rfl⟩
        · simpa using fails.mp behind
        · simpa using Address.toNat_saturatingAdd running head.size
      · -- The sum has not been capped yet, so the entries behind start at an exact one.
        rw [if_neg behind] at failed
        obtain ⟨position, entry, reached, overflows, ends, rfl⟩ :=
          inductionHypothesis (UInt64.not_lt.mp behind) failed
        rw [goesOn behind] at overflows ends
        refine ⟨position + 1, entry, reached, overflows.cons, ?_, rfl⟩
        rw [List.take_succ_cons, totalSize_cons, ← Nat.add_assoc]
        exact ends

end Binding

namespace Section

/-- The entry at a position is the first that the bank has no room for. -/
def Overflows (current : Section) (position : Nat) (entry : Entry) : Prop :=
  current.binding.Overflows current.binding.origin.toNat current.entries position entry

theorem place_of_resolve_error {current : Section} {error : Error}
    (failed : current.resolve.1 = .error error) :
    (current.binding.place current.binding.origin none current.entries).1 = .error error := by
  unfold resolve at failed
  split at failed
  · cases failed
  · rename_i stopped
    rw [stopped]
    exact failed

theorem exists_overflows_of_resolve {current : Section} (sound : current.binding.Sound)
    {error : Error} (failed : current.resolve.1 = .error error) :
    ∃ position entry reached,
      current.Overflows position entry ∧
      reached.toNat = min (current.runningAt (position + 1)) (UInt64.size - 1) ∧
      error = current.binding.overflowAt entry reached := by
  exact Binding.exists_overflows_of_place sound sound.origin_le_high
    (place_of_resolve_error failed)

theorem size_le_roomLimit {current : Section} (sound : current.binding.Sound) {size : UInt64}
    (succeeds : current.resolve.1 = .ok size) : size.toNat ≤ Region.roomLimit := by
  obtain ⟨fits, length, -⟩ := (resolve_ok_iff sound size _).mp (Prod.ext succeeds rfl)
  have high := sound.toNat_high
  have room := current.binding.region.size_le_roomLimit
  have atLeast : current.binding.low.toNat ≤ current.binding.origin.toNat := sound.low_le_origin
  omega

end Section

end RomLayout
