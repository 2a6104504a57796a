import RomLayout.Proofs.Entries

set_option autoImplicit false

/-!
Ids that are given once, and labels that stand in front of what refers to them.

A label is taken out of a section without a look at the entries that refer to it, and a
pass that stops half way leaves references of earlier passes behind. None of them ever
leads to a wrong entry: the counter of ids only grows, no change swaps two entries, and a
pass refers to nothing but the label directly in front.
-/

namespace RomLayout

/-- The id that an insertion answers with. -/
def Answer.insertedId? : Answer → Option EntryId
  | inserted id => some id
  | removed _ | absent | noted | resolved _ | failed _ => none

/-- All ids that were given, those of entries that are gone by now as well. -/
def insertedIds (answers : List Answer) : List EntryId := answers.filterMap Answer.insertedId?

theorem Change.nextId_cases {current changed : Section} {edit : Edit} {answer : Answer}
    (change : Change current edit answer changed) :
    (answer.insertedId? = some current.nextId ∧ changed.nextId = current.nextId + 1) ∨
      (answer.insertedId? = none ∧ changed.nextId = current.nextId) := by
  cases change with
  | inserted => exact .inl ⟨rfl, rfl⟩
  | removed | absent | noted | refused => exact .inr ⟨rfl, rfl⟩
  | resolved resolved | stopped resolved =>
      have same := current.nextId_resolve
      rw [resolved] at same
      exact .inr ⟨rfl, same⟩

/-- A run gives the ids from the counter on, without a gap. -/
theorem Edit.insertedIds_performAll (current : Section) (edits : List Edit) :
    ∃ count, (performAll current edits).2.nextId = current.nextId + count ∧
      insertedIds (performAll current edits).1 = List.range' current.nextId count := by
  induction edits generalizing current with
  | nil => exact ⟨0, rfl, rfl⟩
  | cons edit rest inductionHypothesis =>
      obtain ⟨count, counter, given⟩ := inductionHypothesis (edit.perform current).2
      rcases (edit.perform_change current).nextId_cases with ⟨isGiven, next⟩ | ⟨isGiven, next⟩
      · refine ⟨count + 1, ?_, ?_⟩
        · rw [performAll, counter, next, Nat.add_assoc, Nat.add_comm 1]
        · rw [next] at given
          simp only [insertedIds] at given ⊢
          rw [performAll, List.filterMap_cons, isGiven, given, List.range'_succ]
      · refine ⟨count, ?_, ?_⟩
        · rw [performAll, counter, next]
        · rw [next] at given
          simp only [insertedIds] at given ⊢
          rw [performAll, List.filterMap_cons, isGiven, given]

/-- A pass leaves the label of an entry as it is, or sets it to the one directly in
front. -/
theorem Binding.label_place {binding : Binding} {running : UInt64}
    (inside : running ≤ binding.high) (pending : Option EntryId) {entries : List Entry}
    {position : Nat} {entry placed : Entry} (found : entries[position]? = some entry)
    (placedFound : (binding.place running pending entries).2[position]? = some placed) :
    placed.label = entry.label ∨ placed.label = labelBefore? pending entries position := by
  induction entries generalizing running pending position with
  | nil => simp at found
  | cons head rest inductionHypothesis =>
      rw [place_cons inside] at placedFound
      cases position with
      | zero =>
          have settled : placed = binding.settle running pending entry := by
            cases found
            split at placedFound <;> cases placedFound <;> rfl
          rw [settled, settle]
          split
          · exact .inl rfl
          · exact .inr rfl
      | succ position =>
          rw [List.getElem?_cons_succ] at found
          rw [labelBefore?_cons_succ]
          split at placedFound
          · rw [List.getElem?_cons_succ, found] at placedFound
            cases placedFound
            exact .inl rfl
          · rename_i fitting
            exact inductionHypothesis (UInt64.not_lt.mp fitting) _ found placedFound

namespace Section

variable {current : Section}

theorem entries_resolve (current : Section) :
    current.resolve.2.entries = current.placedEntries := by
  unfold resolve placedEntries
  split
  · rename_i equation
    rw [equation]
  · rename_i equation
    rw [equation]

/-- What becomes of the entry at a position in a pass, whether it ends well or not. -/
theorem passed_of_resolve (sound : current.binding.Sound) {position : Nat} {placed : Entry}
    (placedFound : current.resolve.2.entries[position]? = some placed) :
    ∃ entry, current.entries[position]? = some entry ∧ placed.id = entry.id ∧
      placed.payload = entry.payload ∧
      (placed.label = entry.label ∨
        placed.label = labelBefore? none current.entries position) := by
  obtain ⟨entry, found, leaves⟩ :=
    exists_getElem?_of_forall₂ (forall₂_resolve sound).flip placedFound
  rw [entries_resolve] at placedFound
  exact ⟨entry, found, leaves.id_eq, leaves.payload_eq,
    Binding.label_place sound.origin_le_high none found placedFound⟩

theorem exists_of_labelBefore? {entries : List Entry} {position : Nat} {id : EntryId}
    (inFront : labelBefore? none entries position = some id) :
    ∃ front label, position = front + 1 ∧ entries[front]? = some label ∧ label.id = id ∧
      label.payload.isLabel = true := by
  cases position with
  | zero => cases inFront
  | succ front =>
      rw [labelBefore?, Option.bind_eq_some_iff] at inFront
      obtain ⟨label, found, isId⟩ := inFront
      unfold Entry.labelId? at isId
      split at isId
      · rename_i isLabel
        cases isId
        exact ⟨front, label, rfl, found, rfl, isLabel⟩
      · cases isId

theorem Identified.position_eq (identified : current.Identified) {first second : Nat}
    {entry other : Entry} (found : current.entries[first]? = some entry)
    (otherFound : current.entries[second]? = some other) (sameId : entry.id = other.id) :
    first = second := by
  have firstId : current.ids[first]? = some entry.id := by rw [ids, List.getElem?_map, found]; rfl
  have secondId : current.ids[second]? = some other.id := by
    rw [ids, List.getElem?_map, otherFound]; rfl
  have inside := (List.getElem?_eq_some_iff.mp firstId).1
  exact (List.getElem?_inj inside identified.distinct).mp (by rw [firstId, secondId, sameId])

/-- Where an entry can refer to: to a label, never to an entry behind it, and never to an
id that is still to be given. -/
structure RefersBack (current : Section) : Prop where
  known : ∀ entry ∈ current.entries, ∀ id, entry.label = some id → id < current.nextId
  isLabel : ∀ entry ∈ current.entries, ∀ label ∈ current.entries,
    entry.label = some label.id → label.payload.isLabel = true
  notBehind : current.entries.Pairwise fun earlier later => earlier.label ≠ some later.id

namespace RefersBack

theorem label_ne (back : current.RefersBack) {first second : Nat} {earlier later : Entry}
    (found : current.entries[first]? = some earlier)
    (laterFound : current.entries[second]? = some later) (before : first < second) :
    earlier.label ≠ some later.id := by
  obtain ⟨firstInside, rfl⟩ := List.getElem?_eq_some_iff.mp found
  obtain ⟨secondInside, rfl⟩ := List.getElem?_eq_some_iff.mp laterFound
  exact List.pairwise_iff_getElem.mp back.notBehind first second firstInside secondInside before

theorem grown (back : current.RefersBack) (payload : Payload) (position index : Nat) :
    (current.grown payload position index).RefersBack := by
  have joined : current.entries.take position ++ current.entries.drop position = current.entries :=
    List.take_append_drop position current.entries
  -- Nothing refers to the new entry, because its id has not been given before.
  have unknown : ∀ old ∈ current.entries, old.label ≠ some current.nextId := by
    intro old member refers
    exact Nat.lt_irrefl _ (back.known old member _ refers)
  constructor
  · intro entry member id refers
    rcases mem_take_append_cons_drop.mp member with rfl | old
    · cases refers
    · exact Nat.lt_succ_of_lt (back.known entry old id refers)
  · intro entry member label labelMember refers
    rcases mem_take_append_cons_drop.mp member with rfl | old
    · cases refers
    · rcases mem_take_append_cons_drop.mp labelMember with rfl | oldLabel
      · exact absurd refers (unknown entry old)
      · exact back.isLabel entry old label oldLabel refers
  · have apart := joined.symm ▸ back.notBehind
    rw [List.pairwise_append] at apart
    obtain ⟨before, behind, across⟩ := apart
    simp only [Section.grown]
    rw [List.pairwise_append, List.pairwise_cons]
    refine ⟨before, ⟨fun later _ => by simp [unplaced], behind⟩, ?_⟩
    intro earlier inFront later member
    rcases List.mem_cons.mp member with rfl | old
    · exact unknown earlier (List.mem_of_mem_take inFront)
    · exact across earlier inFront later old

theorem resolve (sound : current.binding.Sound) (identified : current.Identified)
    (back : current.RefersBack) : current.resolve.2.RefersBack := by
  constructor
  · intro placed member id refers
    obtain ⟨position, inside⟩ := List.getElem?_of_mem member
    obtain ⟨entry, found, -, -, sameLabel | inFront⟩ := passed_of_resolve sound inside
    · rw [current.nextId_resolve]
      exact back.known entry (List.mem_of_getElem? found) id (sameLabel ▸ refers)
    · rw [refers] at inFront
      obtain ⟨front, label, -, labelFound, rfl, -⟩ := exists_of_labelBefore? inFront.symm
      rw [current.nextId_resolve]
      exact identified.below _ (List.mem_map_of_mem (List.mem_of_getElem? labelFound))
  · intro placed member label labelMember refers
    obtain ⟨position, inside⟩ := List.getElem?_of_mem member
    obtain ⟨labelPosition, labelInside⟩ := List.getElem?_of_mem labelMember
    obtain ⟨entry, found, -, -, reference⟩ := passed_of_resolve sound inside
    obtain ⟨old, oldFound, sameId, samePayload, -⟩ := passed_of_resolve sound labelInside
    rw [refers, sameId] at reference
    rw [samePayload]
    rcases reference with stale | inFront
    · exact back.isLabel entry (List.mem_of_getElem? found) old (List.mem_of_getElem? oldFound)
        stale.symm
    · obtain ⟨front, other, -, otherFound, otherId, isLabel⟩ := exists_of_labelBefore? inFront.symm
      have samePosition := identified.position_eq otherFound oldFound otherId
      rw [samePosition, oldFound] at otherFound
      cases otherFound
      exact isLabel
  · rw [List.pairwise_iff_getElem]
    intro first second firstInside secondInside before refers
    obtain ⟨entry, found, -, -, reference⟩ :=
      passed_of_resolve sound (List.getElem?_eq_getElem firstInside)
    obtain ⟨later, laterFound, sameId, -⟩ :=
      passed_of_resolve sound (List.getElem?_eq_getElem secondInside)
    rw [refers, sameId] at reference
    rcases reference with stale | inFront
    · exact back.label_ne found laterFound before stale.symm
    · obtain ⟨front, label, rfl, labelFound, labelId, -⟩ := exists_of_labelBefore? inFront.symm
      have samePosition := identified.position_eq labelFound laterFound labelId
      omega

theorem of_change {changed : Section} {edit : Edit} {answer : Answer}
    (sound : current.binding.Sound) (identified : current.Identified) (back : current.RefersBack)
    (change : Change current edit answer changed) : changed.RefersBack := by
  cases change with
  | inserted position checked => exact back.grown _ position _
  | @removed removedId =>
      have fewer : (current.entries.eraseP (·.id == removedId)).Sublist current.entries :=
        List.eraseP_sublist
      constructor
      · intro entry member
        exact back.known entry (fewer.subset member)
      · intro entry member label labelMember
        exact back.isLabel entry (fewer.subset member) label (fewer.subset labelMember)
      · exact back.notBehind.sublist fewer
  | absent | refused => exact back
  | noted => exact ⟨back.known, back.isLabel, back.notBehind⟩
  | resolved resolved | stopped resolved =>
      have passed := back.resolve sound identified
      rwa [resolved] at passed

end RefersBack

end Section

theorem Reachable.refersBack {current : Section} (reachable : Reachable current) :
    current.RefersBack := by
  apply reachable.invariant (motive := Section.RefersBack)
  · intro binding
    exact ⟨by simp [Binding.emptySection], by simp [Binding.emptySection], .nil⟩
  · intro current edit answer changed reachable back change
    exact back.of_change reachable.sound reachable.identified change

namespace Section

variable {current : Section}

/-- A label of the section, and an entry that stands behind it. -/
structure Precedes (current : Section) (front position : Nat) (label entry : Entry) : Prop where
  order : front < position
  labelFound : current.entries[front]? = some label
  entryFound : current.entries[position]? = some entry
  isLabel : label.payload.isLabel = true

/-- A label that an entry refers to, if it is still in the section, stands in front. -/
theorem precedes_of_label (reachable : Reachable current) {front position : Nat}
    {label entry : Entry} (labelFound : current.entries[front]? = some label)
    (entryFound : current.entries[position]? = some entry)
    (refers : entry.label = some label.id) : current.Precedes front position label entry := by
  have back := reachable.refersBack
  have member := List.mem_of_getElem? entryFound
  have isLabel := back.isLabel entry member label (List.mem_of_getElem? labelFound) refers
  refine ⟨?_, labelFound, entryFound, isLabel⟩
  rcases Nat.lt_trichotomy front position with before | same | behind
  · exact before
  · -- A label that referred to itself would have a label.
    rw [same, entryFound] at labelFound
    cases labelFound
    rw [reachable.label_eq_none member isLabel] at refers
    cases refers
  · exact absurd refers (back.label_ne entryFound labelFound behind)

/-- Ids are never given twice, and what an entry is associated with is a label in front
of it or no longer there: after any history, stale references lead nowhere else. -/
theorem references_sound {declaration : Declaration} {bound : Section}
    (accepted : declaration.bind = .ok bound) (edits : List Edit) :
    ∃ answers current, Edit.performAll bound edits = (answers, current) ∧
      current.ids.Nodup ∧
      (insertedIds answers).Nodup ∧ (∀ id ∈ current.ids, id ∈ insertedIds answers) ∧
      (∀ entry ∈ current.entries, entry.payload.isLabel = true → entry.label = none) ∧
      (∀ position entry id, current.entries[position]? = some entry → entry.label = some id →
        id ∈ current.ids →
        ∃ front label, label.id = id ∧ current.Precedes front position label entry) ∧
      ∀ id label, current.labelOf? id = some label →
        ∃ front position entry, entry.id = id ∧ entry.label = some label.id ∧
          current.Precedes front position label entry := by
  have reachable : Reachable (Edit.performAll bound edits).2 :=
    (Reachable.bound accepted).performAll edits
  obtain ⟨count, counter, given⟩ := Edit.insertedIds_performAll bound edits
  obtain ⟨binding, -, rfl⟩ := Declaration.bind_ok accepted
  refine ⟨_, _, rfl, reachable.identified.distinct, ?_, ?_, ?_, ?_, ?_⟩
  · rw [given]
    exact List.nodup_range'
  · intro id member
    have below := reachable.identified.below id member
    rw [counter] at below
    rw [given, List.mem_range'_1]
    exact ⟨Nat.zero_le _, below⟩
  · intro entry member isLabel
    exact reachable.label_eq_none member isLabel
  · intro position entry id found refers member
    obtain ⟨label, labelMember, rfl⟩ := List.mem_map.mp member
    obtain ⟨front, labelFound⟩ := List.getElem?_of_mem labelMember
    exact ⟨front, label, rfl, precedes_of_label reachable labelFound found refers⟩
  · intro id label found
    simp only [labelOf?, entry?, Option.bind_eq_some_iff] at found
    obtain ⟨labelId, ⟨entry, entryFound, refers⟩, labelFound⟩ := found
    have sameId : entry.id = id := by simpa using List.find?_some entryFound
    have sameLabelId : label.id = labelId := by simpa using List.find?_some labelFound
    obtain ⟨position, inside⟩ := List.getElem?_of_mem (List.mem_of_find?_eq_some entryFound)
    obtain ⟨front, labelInside⟩ := List.getElem?_of_mem (List.mem_of_find?_eq_some labelFound)
    have refersToLabel : entry.label = some label.id := by rw [refers, sameLabelId]
    exact ⟨front, position, entry, sameId, refersToLabel,
      precedes_of_label reachable labelInside inside refersToLabel⟩

/-- The first of two labels goes after the pass, and another one takes its place. -/
def relabelling : List Edit :=
  [.append (.label "start") 1, .append (.instruction "jp" 3) 2, .append (.label "loop") 3,
    .append (.instruction "ret" 1) 4, .resolve, .remove 0, .insert (.label "again") 0 5]

def relabelledRomx : Section := (Edit.performAll emptyRomx relabelling).2

/-- The jump still refers to the id 0, which the new label has not got. -/
theorem references_sound_relabelledRomx :
    relabelledRomx.ids = [4, 1, 2, 3] ∧ relabelledRomx.ids.Nodup ∧
      relabelledRomx.entries.map (·.label) = [none, some 0, none, some 2] ∧
      relabelledRomx.labelOf? 1 = none ∧
      ∃ front label, label.id = 2 ∧ relabelledRomx.Precedes front 3 label
        ⟨3, .instruction "ret" 1, 4, some ⟨.physical, 0x8003⟩, some 2⟩ := by
  have bound : Declaration.bind ⟨"main.gbc", "Main", 0, "ROMX", some 2, none⟩ =
    .ok emptyRomx := rfl
  obtain ⟨answers, current, performed, distinct, -, -, -, references, -⟩ :=
    references_sound bound relabelling
  cases performed
  exact ⟨rfl, distinct, rfl, rfl, references 3 _ 2 rfl rfl (by decide)⟩

end Section

end RomLayout
