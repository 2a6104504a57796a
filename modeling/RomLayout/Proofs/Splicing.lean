import RomLayout.Proofs.Policy
import RomLayout.Proofs.References

set_option autoImplicit false

/-!
Entries that are put in anywhere and taken out again.

An entry is taken out by its id, from a list that earlier insertions have reshaped, and the
first match goes. That it is the right one, and the only one, rests on the history: no two
entries of a reachable section share an id. Then putting in and taking out undo each other,
and no neighbour is touched.
-/

namespace RomLayout

/-- What is put between the parts of a list stands at the position, or at the end. -/
theorem take_append_cons_drop_eq_insertIdx {Value : Type} (values : List Value) (position : Nat)
    (added : Value) :
    values.take position ++ added :: values.drop position =
      values.insertIdx (min position values.length) added := by
  induction values generalizing position with
  | nil => simp
  | cons value rest inductionHypothesis =>
      cases position with
      | zero => simp
      | succ position =>
          rw [List.length_cons, Nat.succ_min_succ, List.insertIdx_succ_cons, List.take_succ_cons,
            List.drop_succ_cons, List.cons_append, inductionHypothesis]

namespace Section

variable {current : Section} {payload : Payload} {index : Nat}

theorem grown_eq (current : Section) (payload : Payload) (position index : Nat) :
    current.grown payload position index =
      { current with
        entries := current.entries.insertIdx (min position current.entries.length)
          (current.unplaced payload index)
        size := none
        nextId := current.nextId + 1 } := by
  rw [← take_append_cons_drop_eq_insertIdx]
  rfl

/-- Positions behind the last entry make no difference. -/
theorem insert_eq_append {position : Nat} (behind : current.entries.length ≤ position) :
    current.insert payload position index = current.append payload index := by
  rw [append_eq_insert, insert_eq, insert_eq, grown, grown, List.take_of_length_le behind,
    List.drop_of_length_le behind, List.take_length, List.drop_length]

namespace Identified

theorem id_not_mem {front back : List Entry} {entry : Entry} (identified : current.Identified)
    (split : current.entries = front ++ entry :: back) :
    entry.id ∉ (front ++ back).map (·.id) := by
  have distinct := identified.distinct
  rw [ids, split, List.map_append, List.map_cons, List.nodup_middle, List.nodup_cons,
    ← List.map_append] at distinct
  exact distinct.1

/-- The entry that is meant is the first match, so only this one goes. -/
theorem remove_eq {front back : List Entry} {entry : Entry} (identified : current.Identified)
    (split : current.entries = front ++ entry :: back) :
    current.remove entry.id =
      (some entry, { current with entries := front ++ back, size := none }) := by
  have notInFront : ∀ other ∈ front, ¬(other.id == entry.id) = true := by
    intro other member sameId
    apply identified.id_not_mem split
    rw [← eq_of_beq sameId]
    exact List.mem_map_of_mem (List.mem_append_left back member)
  have isStored : entry ∈ current.entries := by simp [split]
  have others : current.entries.eraseP (·.id == entry.id) = front ++ back := by
    rw [split, List.eraseP_append_right _ notInFront]
    simp
  rw [remove, identified.entry?_eq isStored]
  dsimp only
  rw [others]

/-- Taking a new entry out again leaves nothing of it but a counter that has gone on. -/
theorem remove_grown (identified : current.Identified) (payload : Payload)
    (position index : Nat) :
    (current.grown payload position index).remove current.nextId =
      (some (current.unplaced payload index),
        { current with size := none, nextId := current.nextId + 1 }) := by
  have split : (current.grown payload position index).entries =
      current.entries.take position ++ current.unplaced payload index ::
        current.entries.drop position := rfl
  have removed := (identified.grown payload position index).remove_eq split
  rw [List.take_append_drop] at removed
  exact removed

end Identified

/-- A payload that is admitted becomes one new entry at its position, or at the end where the
list is shorter; taking the id out that was answered gives the list back, once. Every entry
that is stored can be taken out alone. -/
theorem splice_exact {current : Section} (reachable : Reachable current) :
    (∀ payload, current.binding.region.storage.Admits payload → ∀ position index,
      ∃ entry changed restored,
        current.insert payload position index = (.ok entry.id, changed) ∧
        entry.id ∉ current.ids ∧ entry.payload = payload ∧ entry.index = index ∧
        entry.address = none ∧ entry.label = none ∧
        changed = { current with
          entries := current.entries.insertIdx (min position current.entries.length) entry
          size := none
          nextId := current.nextId + 1 } ∧
        changed.remove entry.id = (some entry, restored) ∧
        restored = { current with size := none, nextId := current.nextId + 1 } ∧
        restored.remove entry.id = (none, restored) ∧
        (current.entries.length ≤ position →
          current.append payload index = (.ok entry.id, changed))) ∧
    ∀ entry ∈ current.entries, ∃ front back changed,
      current.entries = front ++ entry :: back ∧
      current.remove entry.id = (some entry, changed) ∧
      changed = { current with entries := front ++ back, size := none } ∧
      changed.remove entry.id = (none, changed) := by
  have identified := reachable.identified
  constructor
  · intro payload admits position index
    have inserted := insert_of_admits admits position index
    refine ⟨current.unplaced payload index, _, _, inserted, identified.nextId_not_mem, rfl, rfl,
      rfl, rfl, current.grown_eq payload position index,
      identified.remove_grown payload position index, rfl,
      remove_of_not_mem identified.nextId_not_mem, ?_⟩
    intro behind
    rw [← insert_eq_append behind]
    exact inserted
  · intro entry member
    obtain ⟨front, back, split⟩ := List.append_of_mem member
    exact ⟨front, back, _, split, identified.remove_eq split, rfl,
      remove_of_not_mem (identified.id_not_mem split)⟩

/-- An instruction behind the last entry, at the highest position that there is, and the
removal of a jump that refers to a label which is gone. -/
theorem splice_exact_relabelledRomx :
    Reachable relabelledRomx ∧
      relabelledRomx.binding.region.storage.Admits (.instruction "nop" 1) ∧
      (∃ entry changed restored,
        relabelledRomx.insert (.instruction "nop" 1) 0xFFFFFFFFFFFFFFFF 6 =
          (.ok entry.id, changed) ∧
        changed.ids = [4, 1, 2, 3, 5] ∧ changed.remove entry.id = (some entry, restored) ∧
        restored.entries = relabelledRomx.entries ∧
        restored.remove entry.id = (none, restored) ∧
        relabelledRomx.append (.instruction "nop" 1) 6 = (.ok entry.id, changed)) ∧
      ∃ changed, relabelledRomx.remove 1 =
          (some ⟨1, .instruction "jp" 3, 2, some ⟨.physical, 0x8000⟩, some 0⟩, changed) ∧
        changed.ids = [4, 2, 3] := by
  have reachable : Reachable relabelledRomx := Reachable.emptyRomx.performAll _
  have admits : relabelledRomx.binding.region.storage.Admits (.instruction "nop" 1) := by decide
  obtain ⟨splices, removes⟩ := splice_exact reachable
  refine ⟨reachable, admits, ?_, ?_⟩
  · obtain ⟨entry, changed, restored, inserted, -, -, -, -, -, shape, removed, rest, gone,
      appended⟩ := splices _ admits 0xFFFFFFFFFFFFFFFF 6
    have isLast := appended (by decide)
    have ids : (relabelledRomx.append (.instruction "nop" 1) 6).2.ids = [4, 1, 2, 3, 5] := rfl
    rw [isLast] at ids
    refine ⟨entry, changed, restored, inserted, ids, removed, ?_, gone, isLast⟩
    rw [rest]
  · obtain ⟨front, back, changed, split, removed, -, -⟩ :=
      removes ⟨1, .instruction "jp" 3, 2, some ⟨.physical, 0x8000⟩, some 0⟩ (by decide)
    refine ⟨changed, removed, ?_⟩
    cases removed
    rfl

end Section

end RomLayout
