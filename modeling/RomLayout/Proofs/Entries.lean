import Mathlib.Data.List.Forall2
import Mathlib.Data.List.Nodup
import RomLayout.Proofs.Resolution

set_option autoImplicit false

/-!
The entries of a section one by one, through any history.

Seen from one entry there are only three things that happen: it is made without
address and label, a pass settles it somewhere between the origin and the end of the
bank, or it stays as it is. Its id is its own all the time.
-/

namespace RomLayout

theorem exists_getElem?_of_forall₂ {First Second : Type} {Related : First → Second → Prop}
    {first : List First} {second : List Second} (related : List.Forall₂ Related first second)
    {position : Nat} {value : First} (found : first[position]? = some value) :
    ∃ other, second[position]? = some other ∧ Related value other := by
  obtain ⟨inside, rfl⟩ := List.getElem?_eq_some_iff.mp found
  have insideOther : position < second.length := related.length_eq ▸ inside
  exact ⟨_, List.getElem?_eq_getElem insideOther, related.get inside insideOther⟩

theorem exists_mem_of_forall₂ {First Second : Type} {Related : First → Second → Prop}
    {first : List First} {second : List Second} (related : List.Forall₂ Related first second)
    {value : Second} (member : value ∈ second) : ∃ other ∈ first, Related other value := by
  obtain ⟨position, found⟩ := List.getElem?_of_mem member
  obtain ⟨other, otherFound, holds⟩ := exists_getElem?_of_forall₂ related.flip found
  exact ⟨other, List.mem_of_getElem? otherFound, holds⟩

theorem map_eq_map_iff_forall₂ {First Second Value : Type} {left : First → Value}
    {right : Second → Value} {first : List First} {second : List Second} :
    first.map left = second.map right ↔
      List.Forall₂ (fun value other => left value = right other) first second := by
  rw [← List.forall₂_eq_eq_eq, List.forall₂_map_left_iff, List.forall₂_map_right_iff]

namespace Binding

/-- What a pass that starts at `first` can leave of an entry. -/
inductive Leaves (binding : Binding) (first : UInt64) (entry : Entry) : Entry → Prop where
  | untouched : Leaves binding first entry entry
  | settled (running : UInt64) (pending : Option EntryId) :
      first ≤ running → running ≤ binding.high →
      Leaves binding first entry (binding.settle running pending entry)

namespace Leaves

variable {binding : Binding} {first : UInt64} {entry placed : Entry}

theorem id_eq (leaves : binding.Leaves first entry placed) : placed.id = entry.id := by
  cases leaves with
  | untouched => rfl
  | settled => simp

theorem payload_eq (leaves : binding.Leaves first entry placed) :
    placed.payload = entry.payload := by
  cases leaves with
  | untouched => rfl
  | settled => simp

theorem index_eq (leaves : binding.Leaves first entry placed) : placed.index = entry.index := by
  cases leaves with
  | untouched => rfl
  | settled => simp

theorem label_eq (leaves : binding.Leaves first entry placed)
    (isLabel : entry.payload.isLabel = true) : placed.label = entry.label := by
  cases leaves with
  | untouched => rfl
  | settled => rw [settle, if_pos isLabel]

theorem mono {later : UInt64} (behind : first ≤ later)
    (leaves : binding.Leaves later entry placed) : binding.Leaves first entry placed := by
  cases leaves with
  | untouched => exact .untouched
  | settled running pending atLeast atMost =>
      exact .settled running pending (UInt64.le_trans behind atLeast) atMost

end Leaves

theorem le_saturatingAdd (running size : UInt64) :
    running ≤ Address.saturatingAdd running size := by
  have small := UInt64.toNat_lt running
  rw [UInt64.le_iff_toNat_le, Address.toNat_saturatingAdd, UInt64.size]
  omega

theorem forall₂_place {binding : Binding} {running : UInt64} (inside : running ≤ binding.high)
    (pending : Option EntryId) (entries : List Entry) :
    List.Forall₂ (binding.Leaves running) entries (binding.place running pending entries).2 := by
  induction entries generalizing running pending with
  | nil => exact .nil
  | cons entry rest inductionHypothesis =>
      have head : binding.Leaves running entry (binding.settle running pending entry) :=
        .settled running pending (UInt64.le_refl _) inside
      rw [place_cons inside]
      split
      · exact .cons head (List.forall₂_same.mpr fun _ _ => .untouched)
      · rename_i fitting
        have behind := inductionHypothesis (UInt64.not_lt.mp fitting) entry.labelId?
        exact .cons head (behind.imp fun _ _ leaves => leaves.mono (le_saturatingAdd _ _))

end Binding

namespace Section

variable {current : Section}

theorem forall₂_resolve (sound : current.binding.Sound) :
    List.Forall₂ (current.binding.Leaves current.binding.origin) current.entries
      current.resolve.2.entries := by
  have placed := Binding.forall₂_place sound.origin_le_high none current.entries
  unfold resolve
  split
  · rename_i equation
    rwa [equation] at placed
  · rename_i equation
    rwa [equation] at placed

theorem nextId_resolve (current : Section) : current.resolve.2.nextId = current.nextId := by
  unfold resolve
  split <;> rfl

end Section

/-- What is put between the parts of a list comes to the values that are there. -/
theorem mem_take_append_cons_drop {Value : Type} {values : List Value} {position : Nat}
    {added value : Value} :
    value ∈ values.take position ++ added :: values.drop position ↔
      value = added ∨ value ∈ values := by
  rw [List.mem_append, List.mem_cons, or_left_comm, ← List.mem_append, List.take_append_drop]

/-- An entry behind a change is new, or it is what a pass leaves of an entry in front
of the change. -/
theorem Change.of_mem {current changed : Section} {edit : Edit} {answer : Answer}
    (sound : current.binding.Sound) (change : Change current edit answer changed) {entry : Entry}
    (member : entry ∈ changed.entries) :
    (entry.address = none ∧ entry.label = none) ∨
      ∃ old ∈ current.entries, current.binding.Leaves current.binding.origin old entry := by
  cases change with
  | inserted position checked =>
      rcases mem_take_append_cons_drop.mp member with rfl | old
      · exact .inl ⟨rfl, rfl⟩
      · exact .inr ⟨entry, old, .untouched⟩
  | removed => exact .inr ⟨entry, List.mem_of_mem_eraseP member, .untouched⟩
  | absent | noted | refused => exact .inr ⟨entry, member, .untouched⟩
  | resolved resolved | stopped resolved =>
      have placed := Section.forall₂_resolve sound
      rw [resolved] at placed
      exact .inr (exists_mem_of_forall₂ placed member)

/-- A property of single entries holds through every history if new entries have it
and a pass keeps it. -/
theorem Reachable.forall_entries {motive : Binding → Entry → Prop}
    (fresh : ∀ binding entry, entry.address = none → entry.label = none → motive binding entry)
    (passed : ∀ binding entry placed, binding.Sound → motive binding entry →
      binding.Leaves binding.origin entry placed → motive binding placed)
    {current : Section} (reachable : Reachable current) :
    ∀ entry ∈ current.entries, motive current.binding entry := by
  apply reachable.invariant
    (motive := fun current => ∀ entry ∈ current.entries, motive current.binding entry)
  · intro binding entry member
    cases member
  · intro current edit answer changed reachable holds change entry member
    rw [change.binding_eq]
    rcases change.of_mem reachable.sound member with ⟨noAddress, noLabel⟩ | ⟨old, oldMember, leaves⟩
    · exact fresh _ entry noAddress noLabel
    · exact passed _ old entry reachable.sound (holds old oldMember) leaves

/-- A label never belongs to another label. -/
theorem Reachable.label_eq_none {current : Section} (reachable : Reachable current) {entry : Entry}
    (member : entry ∈ current.entries) (isLabel : entry.payload.isLabel = true) :
    entry.label = none := by
  apply reachable.forall_entries
    (motive := fun _ entry => entry.payload.isLabel = true → entry.label = none) _ _ entry member
    isLabel
  · intro _ entry _ noLabel _
    exact noLabel
  · intro _ old placed _ unattached leaves isLabel
    have oldIsLabel : old.payload.isLabel = true := leaves.payload_eq ▸ isLabel
    rw [leaves.label_eq oldIsLabel]
    exact unattached oldIsLabel

namespace Section

variable {current : Section}

def ids (current : Section) : List EntryId := current.entries.map (·.id)

theorem remove_of_not_mem {id : EntryId} (unused : id ∉ current.ids) :
    current.remove id = (none, current) := by
  have missing : current.entry? id = none := by
    simpa [ids, entry?, List.find?_eq_none] using unused
  rw [remove, missing]

/-- No two entries share an id, and the next one is new. -/
structure Identified (current : Section) : Prop where
  distinct : current.ids.Nodup
  below : ∀ id ∈ current.ids, id < current.nextId

theorem ids_resolve (sound : current.binding.Sound) : current.resolve.2.ids = current.ids := by
  rw [eq_comm, ids, ids, map_eq_map_iff_forall₂]
  exact (forall₂_resolve sound).imp fun _ _ leaves => leaves.id_eq.symm

namespace Identified

theorem nextId_not_mem (identified : current.Identified) : current.nextId ∉ current.ids :=
  fun used => Nat.lt_irrefl _ (identified.below _ used)

theorem grown (identified : current.Identified) (payload : Payload) (position index : Nat) :
    (current.grown payload position index).Identified := by
  have joined : current.ids.take position ++ current.ids.drop position = current.ids :=
    List.take_append_drop position current.ids
  constructor
  · simp only [ids, Section.grown, List.map_append, List.map_cons, List.map_take, List.map_drop]
    rw [List.nodup_middle, List.nodup_cons]
    exact joined.symm ▸ ⟨identified.nextId_not_mem, identified.distinct⟩
  · intro id member
    simp only [ids, Section.grown, List.map_append, List.map_cons, List.map_take,
      List.map_drop] at member
    rcases mem_take_append_cons_drop.mp member with rfl | old
    · exact Nat.lt_succ_self _
    · exact Nat.lt_succ_of_lt (identified.below id old)

theorem of_change {changed : Section} {edit : Edit} {answer : Answer}
    (sound : current.binding.Sound) (identified : current.Identified)
    (change : Change current edit answer changed) : changed.Identified := by
  cases change with
  | inserted position checked => exact identified.grown _ position _
  | @removed removedId =>
      have fewer : ((current.entries.eraseP (·.id == removedId)).map (·.id)).Sublist current.ids :=
        List.eraseP_sublist.map Entry.id
      refine ⟨identified.distinct.sublist fewer, ?_⟩
      intro id member
      exact identified.below id (fewer.subset member)
  | absent | refused | noted => exact ⟨identified.distinct, identified.below⟩
  | resolved resolved | stopped resolved =>
      have sameIds := ids_resolve sound
      have sameNext := current.nextId_resolve
      rw [resolved] at sameIds sameNext
      refine ⟨sameIds ▸ identified.distinct, ?_⟩
      rw [sameIds, sameNext]
      exact identified.below

theorem entry?_eq (identified : current.Identified) {entry : Entry}
    (member : entry ∈ current.entries) : current.entry? entry.id = some entry := by
  unfold entry?
  cases found : current.entries.find? (·.id == entry.id) with
  | none => simpa using List.find?_eq_none.mp found entry member
  | some other =>
      have sameId : other.id = entry.id := by simpa using List.find?_some found
      have otherMember := List.mem_of_find?_eq_some found
      rw [List.inj_on_of_nodup_map identified.distinct otherMember member sameId]

end Identified

end Section

theorem Reachable.identified {current : Section} (reachable : Reachable current) :
    current.Identified := by
  apply reachable.invariant (motive := Section.Identified)
  · intro binding
    exact ⟨List.nodup_nil, by simp [Section.ids, Binding.emptySection]⟩
  · intro current edit answer changed reachable identified change
    exact identified.of_change reachable.sound change

end RomLayout
