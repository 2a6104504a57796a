import RomLayout.Proofs.Building
import RomLayout.Proofs.Snapshot.Settled

set_option autoImplicit false

/-!
Placement without history.

Two sections of one binding whose entries agree in payload and source index may have
been edited in different ways: their ids differ, and so do the addresses and labels left
over from earlier passes. Resolving them gives the same answer and the same snapshot.
-/

namespace RomLayout

namespace Entry

/-- What an entry is made of, apart from its id and from what passes have left. -/
def content (entry : Entry) : Payload × Nat := (entry.payload, entry.index)

def SameContent (first second : Entry) : Prop := first.content = second.content

namespace SameContent

variable {first second : Entry}

theorem payload (same : first.SameContent second) : first.payload = second.payload :=
  congrArg Prod.fst same

theorem index (same : first.SameContent second) : first.index = second.index :=
  congrArg Prod.snd same

theorem size (same : first.SameContent second) : first.size = second.size :=
  congrArg Payload.size same.payload

end SameContent

end Entry

theorem totalSize_eq_of_contents {first second : List Entry}
    (same : List.Forall₂ Entry.SameContent first second) : totalSize first = totalSize second := by
  induction same with
  | nil => rfl
  | cons head _ inductionHypothesis =>
      rw [totalSize_cons, totalSize_cons, head.size, inductionHypothesis]

namespace Binding

theorem Leaves.content_eq {binding : Binding} {first : UInt64} {entry placed : Entry}
    (leaves : binding.Leaves first entry placed) : placed.content = entry.content :=
  Prod.ext leaves.payload_eq leaves.index_eq

theorem place_fst_eq_of_contents {binding : Binding} {first second : List Entry}
    (same : List.Forall₂ Entry.SameContent first second) {running : UInt64}
    (inside : running ≤ binding.high) (pending otherPending : Option EntryId) :
    (binding.place running pending first).1 = (binding.place running otherPending second).1 := by
  induction same generalizing running pending otherPending with
  | nil => rfl
  | cons head _ inductionHypothesis =>
      rw [place_cons inside, place_cons inside, head.size]
      split
      · rw [overflowAt, overflowAt, head.index]
      · rename_i fitting
        exact inductionHypothesis (UInt64.not_lt.mp fitting) _ _

end Binding

namespace Section

variable {current first second : Section} {size : UInt64}

def contents (current : Section) : List (Payload × Nat) := current.entries.map Entry.content

theorem contents_resolve (sound : current.binding.Sound) :
    current.resolve.2.contents = current.contents := by
  rw [eq_comm, contents, contents, map_eq_map_iff_forall₂]
  exact (forall₂_resolve sound).imp fun _ _ leaves => leaves.content_eq.symm

/-- Sections of one binding with the same entries in the same order, up to ids and
whatever passes have left behind. -/
structure Alike (first second : Section) : Prop where
  binding : first.binding = second.binding
  contents : first.contents = second.contents

/-- What two entries, each of its own section, have as their labels: nothing, or the
labels that stand at one position of both sections. -/
inductive SameLabel (first second : Section) : Option EntryId → Option EntryId → Prop where
  | none : SameLabel first second none none
  | at {position : Nat} {label other : Entry} :
      first.entries[position]? = some label → second.entries[position]? = some other →
      label.payload.isLabel = true → other.payload.isLabel = true →
      SameLabel first second (some label.id) (some other.id)

/-- The label of an entry once all entries are settled: none for a label, and for any
other entry the one directly in front. -/
theorem Settled.label_eq (settled : current.Settled size) {position : Nat} {entry : Entry}
    (found : current.entries[position]? = some entry) :
    entry.label =
      if entry.payload.isLabel then none else labelBefore? none current.entries position := by
  obtain ⟨placed, placedFound, places⟩ := places_of_resolve settled.reachable.sound
    (settled.reachable.fresh size settled.recorded) found
  rw [found] at placedFound
  cases placedFound
  split
  · rename_i isLabel
    exact settled.reachable.label_eq_none (List.mem_of_getElem? found) isLabel
  · rename_i content
    obtain ⟨address, shape, -⟩ := places.content (Bool.eq_false_iff.mpr content)
    exact congrArg Entry.label shape

namespace Alike

theorem entries (alike : first.Alike second) :
    List.Forall₂ Entry.SameContent first.entries second.entries :=
  map_eq_map_iff_forall₂.mp alike.contents

theorem resolve_fst (alike : first.Alike second) (sound : first.binding.Sound) :
    first.resolve.1 = second.resolve.1 := by
  have same := Binding.place_fst_eq_of_contents alike.entries sound.origin_le_high none none
  unfold resolve
  rw [← alike.binding]
  rcases placed : first.binding.place first.binding.origin none first.entries with ⟨result, entries⟩
  rcases otherPlaced : first.binding.place first.binding.origin none second.entries with
    ⟨other, others⟩
  rw [placed, otherPlaced] at same
  cases same
  cases result <;> rfl

theorem resolve_snd (alike : first.Alike second) (sound : first.binding.Sound) :
    first.resolve.2.Alike second.resolve.2 := by
  constructor
  · rw [first.resolve_binding, second.resolve_binding, alike.binding]
  · rw [contents_resolve sound, contents_resolve (alike.binding ▸ sound), alike.contents]

theorem runningAt (alike : first.Alike second) (position : Nat) :
    first.runningAt position = second.runningAt position := by
  rw [Section.runningAt, Section.runningAt, alike.binding,
    totalSize_eq_of_contents (List.forall₂_take position alike.entries)]

theorem payloads (alike : first.Alike second) : first.payloads = second.payloads :=
  map_eq_map_iff_forall₂.mpr (alike.entries.imp fun _ _ same => same.payload)

theorem summary (alike : first.Alike second) (sameSize : first.size = second.size) (frame : Frame) :
    first.summary frame = second.summary frame := by
  have sameBeginning : first.beginning frame = second.beginning frame := by
    cases frame <;> simp only [beginning, alike.binding]
  simp only [Section.summary, sameBeginning, alike.binding, sameSize]

theorem snapshot_entries (alike : first.Alike second) (firstSettled : first.Settled size)
    (secondSettled : second.Settled size) :
    first.snapshot.entries = second.snapshot.entries := by
  have firstFresh := firstSettled.reachable.fresh size firstSettled.recorded
  have secondFresh := secondSettled.reachable.fresh size secondSettled.recorded
  apply List.ext_getElem?
  intro position
  cases found : first.entries[position]? with
  | none =>
      have behind : first.entries.length ≤ position := List.getElem?_eq_none_iff.mp found
      have behindOther := behind
      rw [alike.entries.length_eq] at behindOther
      rw [snapshot, snapshot, List.getElem?_map, List.getElem?_map, found,
        List.getElem?_eq_none behindOther]
      rfl
  | some entry =>
      obtain ⟨other, otherFound, same⟩ := exists_getElem?_of_forall₂ alike.entries found
      obtain ⟨address, here, shown⟩ :=
        snapshot_entries_of_resolve firstSettled.reachable firstFresh found
      obtain ⟨otherAddress, otherHere, otherShown⟩ :=
        snapshot_entries_of_resolve secondSettled.reachable secondFresh otherFound
      have sameAddress : address = otherAddress := by
        rw [← UInt64.toNat_inj, here, otherHere, alike.runningAt]
      rw [shown, otherShown, same.payload, sameAddress, alike.payloads]

theorem snapshot (alike : first.Alike second) (firstSettled : first.Settled size)
    (secondSettled : second.Settled size) : first.snapshot = second.snapshot := by
  have sameEntries := alike.snapshot_entries firstSettled secondSettled
  simp only [Section.snapshot, isReadWrite, alike.binding, SectionSnapshot.mk.injEq, true_and]
  exact sameEntries

theorem sameLabel_labelBefore? (alike : first.Alike second) (position : Nat) :
    SameLabel first second (labelBefore? none first.entries position)
      (labelBefore? none second.entries position) := by
  cases position with
  | zero => exact .none
  | succ front =>
      rw [labelBefore?, labelBefore?]
      cases found : first.entries[front]? with
      | none =>
          have behind : first.entries.length ≤ front := List.getElem?_eq_none_iff.mp found
          rw [alike.entries.length_eq] at behind
          rw [List.getElem?_eq_none behind]
          exact .none
      | some entry =>
          obtain ⟨other, otherFound, same⟩ := exists_getElem?_of_forall₂ alike.entries found
          rw [otherFound, Option.bind_some, Option.bind_some, Entry.labelId?, Entry.labelId?,
            ← same.payload]
          split
          · rename_i isLabel
            exact .at found otherFound isLabel (same.payload ▸ isLabel)
          · exact .none

theorem sameLabel (alike : first.Alike second) (firstSettled : first.Settled size)
    (secondSettled : second.Settled size) {position : Nat} {entry other : Entry}
    (found : first.entries[position]? = some entry)
    (otherFound : second.entries[position]? = some other) :
    SameLabel first second entry.label other.label := by
  obtain ⟨_, partnerFound, same⟩ := exists_getElem?_of_forall₂ alike.entries found
  rw [otherFound] at partnerFound
  cases partnerFound
  rw [firstSettled.label_eq found, secondSettled.label_eq otherFound, ← same.payload]
  split
  · exact .none
  · exact alike.sameLabel_labelBefore? position

end Alike

/-- Of all that was done to a section, only the entries that are left count. Two sections
of one binding that hold the same payloads with the same source indices resolve to the
same size or to the same error. If they fit, their snapshots and summaries are equal, and
every entry has the same label by position. -/
theorem resolve_eq_of_contents {first second : Section} (firstReachable : Reachable first)
    (secondReachable : Reachable second) (sameBinding : first.binding = second.binding)
    (sameContents : first.contents = second.contents) :
    first.resolve.1 = second.resolve.1 ∧
    ∀ size, first.resolve.1 = .ok size →
      first.resolve.2.snapshot = second.resolve.2.snapshot ∧
      (∀ frame, first.resolve.2.summary frame = second.resolve.2.summary frame) ∧
      ∀ (position : Nat) (entry other : Entry), first.resolve.2.entries[position]? = some entry →
        second.resolve.2.entries[position]? = some other →
        SameLabel first.resolve.2 second.resolve.2 entry.label other.label := by
  have alike : first.Alike second := ⟨sameBinding, sameContents⟩
  have sameAnswer := alike.resolve_fst firstReachable.sound
  have alikeAfter := alike.resolve_snd firstReachable.sound
  refine ⟨sameAnswer, ?_⟩
  intro size succeeds
  have firstSettled : first.resolve.2.Settled size :=
    ⟨firstReachable.resolve, size_of_resolve (Prod.ext succeeds rfl)⟩
  have secondSettled : second.resolve.2.Settled size :=
    ⟨secondReachable.resolve, size_of_resolve (Prod.ext (sameAnswer ▸ succeeds) rfl)⟩
  refine ⟨alikeAfter.snapshot firstSettled secondSettled, ?_, ?_⟩
  · intro frame
    exact alikeAfter.summary (firstSettled.recorded.trans secondSettled.recorded.symm) frame
  · intro position entry other found otherFound
    exact alikeAfter.sameLabel firstSettled secondSettled found otherFound

/-- The entries of `staleRomx`, appended in their order. -/
def orderlyRomx : Section :=
  (Edit.performAll emptyRomx
    [.append (.label "start") 1, .append (.label "again") 3, .append (.instruction "jp" 3) 2,
      .append (.data (.reserve 0)) 5]).2

/-- The ids of the two sections differ from the second entry on. -/
theorem resolve_eq_of_contents_romx :
    Reachable staleRomx ∧ Reachable orderlyRomx ∧ staleRomx.binding = orderlyRomx.binding ∧
      staleRomx.contents = orderlyRomx.contents ∧ staleRomx.ids = [0, 2, 1, 4] ∧
      orderlyRomx.ids = [0, 1, 2, 3] ∧ staleRomx.resolve.1 = .ok 3 ∧
      staleRomx.resolve.2.snapshot = orderlyRomx.resolve.2.snapshot := by
  have orderly : Reachable orderlyRomx := Reachable.emptyRomx.performAll _
  obtain ⟨-, settled⟩ := resolve_eq_of_contents reachable_staleRomx orderly rfl rfl
  exact ⟨reachable_staleRomx, orderly, rfl, rfl, rfl, rfl, rfl, (settled 3 rfl).1⟩

end Section

end RomLayout
