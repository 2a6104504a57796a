import RomLayout.Proofs.History

set_option autoImplicit false

/-!
Placing entries, in exact numbers.

`totalSize` adds sizes without any bound, so it is not the sum that the pass itself
computes. As long as the pass has not failed, its running address is the origin plus
the exact sizes of the entries behind it; the pass fails exactly when this sum leaves
the bank.
-/

namespace RomLayout

/-- The exact number of bytes in some entries. -/
def totalSize : List Entry → Nat
  | [] => 0
  | entry :: rest => entry.size.toNat + totalSize rest

@[simp] theorem totalSize_nil : totalSize [] = 0 := rfl

@[simp] theorem totalSize_cons (entry : Entry) (rest : List Entry) :
    totalSize (entry :: rest) = entry.size.toNat + totalSize rest := rfl

theorem totalSize_append (first second : List Entry) :
    totalSize (first ++ second) = totalSize first + totalSize second := by
  induction first with
  | nil => simp
  | cons entry rest inductionHypothesis => simp [inductionHypothesis, Nat.add_assoc]

theorem totalSize_take_le (entries : List Entry) (position : Nat) :
    totalSize (entries.take position) ≤ totalSize entries := by
  have split := totalSize_append (entries.take position) (entries.drop position)
  rw [List.take_append_drop] at split
  omega

theorem totalSize_take_succ {entries : List Entry} {position : Nat} {entry : Entry}
    (found : entries[position]? = some entry) :
    totalSize (entries.take (position + 1)) =
      totalSize (entries.take position) + entry.size.toNat := by
  rw [List.take_add_one, found, totalSize_append]
  simp

theorem totalSize_take_mono (entries : List Entry) {first second : Nat} (atMost : first ≤ second) :
    totalSize (entries.take first) ≤ totalSize (entries.take second) := by
  have shorter := totalSize_take_le (entries.take second) first
  rwa [List.take_take, Nat.min_eq_left atMost] at shorter

/-- The label that an entry is, for the entry behind it. -/
def Entry.labelId? (entry : Entry) : Option EntryId :=
  if entry.payload.isLabel then some entry.id else none

/-- The label directly in front of a position; `pending` stands in front of the list. -/
def labelBefore? (pending : Option EntryId) (entries : List Entry) : Nat → Option EntryId
  | 0 => pending
  | position + 1 => entries[position]?.bind Entry.labelId?

theorem labelBefore?_cons_succ (pending : Option EntryId) (entry : Entry) (rest : List Entry)
    (position : Nat) :
    labelBefore? pending (entry :: rest) (position + 1) =
      labelBefore? entry.labelId? rest position := by
  cases position <;> rfl

namespace Binding

/-- The entry as a pass leaves it that comes by at `running`, with the label
`pending` directly in front. -/
def settle (binding : Binding) (running : UInt64) (pending : Option EntryId) (entry : Entry) :
    Entry :=
  if entry.payload.isLabel then
    { entry with address := some ⟨.cpu, running - binding.bankOffset⟩ }
  else { entry with address := some ⟨.physical, running⟩, label := pending }

section Settle

variable (binding : Binding) (running : UInt64) (pending : Option EntryId) (entry : Entry)

@[simp] theorem settle_id : (binding.settle running pending entry).id = entry.id := by
  unfold settle
  split <;> rfl

@[simp] theorem settle_payload :
    (binding.settle running pending entry).payload = entry.payload := by
  unfold settle
  split <;> rfl

@[simp] theorem settle_index : (binding.settle running pending entry).index = entry.index := by
  unfold settle
  split <;> rfl

@[simp] theorem settle_size : (binding.settle running pending entry).size = entry.size := by
  simp [Entry.size]

@[simp] theorem settle_labelId? :
    (binding.settle running pending entry).labelId? = entry.labelId? := by
  simp [Entry.labelId?]

@[simp] theorem settle_settle :
    binding.settle running pending (binding.settle running pending entry) =
      binding.settle running pending entry := by
  unfold settle
  split <;> simp_all

end Settle

theorem size_of_isLabel {entry : Entry} (isLabel : entry.payload.isLabel = true) :
    entry.size = 0 := by
  unfold Entry.size
  cases equation : entry.payload with
  | label name => rfl
  | instruction | data | slot | binary => simp [equation, Payload.isLabel] at isLabel

theorem saturatingAdd_zero (running : UInt64) : Address.saturatingAdd running 0 = running := by
  have small := UInt64.toNat_lt running
  apply UInt64.toNat_inj.mp
  rw [Address.toNat_saturatingAdd]
  simp only [UInt64.toNat_zero, UInt64.size]
  omega

/-- Labels and other entries alike: the pass goes on behind the entry unless it
would leave the bank. -/
theorem place_cons {binding : Binding} {running : UInt64} (inside : running ≤ binding.high)
    (pending : Option EntryId) (entry : Entry) (rest : List Entry) :
    binding.place running pending (entry :: rest) =
      if binding.high < Address.saturatingAdd running entry.size then
        (.error (binding.overflowAt entry (Address.saturatingAdd running entry.size)),
          binding.settle running pending entry :: rest)
      else
        ((binding.place (Address.saturatingAdd running entry.size) entry.labelId? rest).1,
          binding.settle running pending entry ::
            (binding.place (Address.saturatingAdd running entry.size) entry.labelId? rest).2) := by
  rw [place]
  split
  · rename_i isLabel
    have unmoved : Address.saturatingAdd running entry.size = running := by
      rw [size_of_isLabel isLabel, saturatingAdd_zero]
    simp only [unmoved, if_neg (UInt64.not_lt.mpr inside), settle, Entry.labelId?, isLabel, if_true]
  · rename_i content
    simp only [settle, Entry.labelId?, content, if_false, Bool.false_eq_true]

/-- One step of the pass. It fails exactly if the entry ends behind the bank, and
else goes on where the entry ends. -/
theorem toNat_step {binding : Binding} (sound : binding.Sound) (running size : UInt64) :
    (binding.high < Address.saturatingAdd running size ↔
      binding.high.toNat < running.toNat + size.toNat) ∧
    (¬binding.high < Address.saturatingAdd running size →
      (Address.saturatingAdd running size).toNat = running.toNat + size.toNat) := by
  have small := sound.high_le_limit
  unfold Region.windowLimit at small
  rw [UInt64.lt_iff_toNat_lt, Address.toNat_saturatingAdd, UInt64.size]
  omega

theorem length_place (binding : Binding) (running : UInt64) (pending : Option EntryId)
    (entries : List Entry) : (binding.place running pending entries).2.length = entries.length := by
  induction entries generalizing running pending with
  | nil => rfl
  | cons entry rest inductionHypothesis =>
      rw [place]
      split
      · simp [inductionHypothesis]
      · dsimp only
        split
        · simp
        · simp [inductionHypothesis]

/-- The pass ends well exactly if everything fits, and then it ends behind the
last byte. -/
theorem place_ok_iff {binding : Binding} (sound : binding.Sound) {running : UInt64}
    (inside : running ≤ binding.high) (pending : Option EntryId) (entries : List Entry)
    (reached : UInt64) :
    (binding.place running pending entries).1 = .ok reached ↔
      running.toNat + totalSize entries ≤ binding.high.toNat ∧
        reached.toNat = running.toNat + totalSize entries := by
  induction entries generalizing running pending with
  | nil =>
      have insideNat : running.toNat ≤ binding.high.toNat := inside
      simp only [place, Except.ok.injEq, totalSize_nil, Nat.add_zero, insideNat, true_and,
        UInt64.toNat_inj]
      exact eq_comm
  | cons entry rest inductionHypothesis =>
      obtain ⟨fails, goesOn⟩ := toNat_step sound running entry.size
      rw [place_cons inside, totalSize_cons]
      split
      · rename_i behind
        have behindNat := fails.mp behind
        simp only [reduceCtorEq, false_iff, not_and]
        omega
      · rename_i fitting
        have next := goesOn fitting
        rw [inductionHypothesis (UInt64.not_lt.mp fitting), next, Nat.add_assoc]

/-- Every entry that the pass comes to is settled at the origin plus the exact
sizes of the entries in front of it. -/
theorem getElem?_place {binding : Binding} (sound : binding.Sound) {running : UInt64}
    (inside : running ≤ binding.high) (pending : Option EntryId) {entries : List Entry}
    {position : Nat} {entry : Entry} (found : entries[position]? = some entry)
    (visited : running.toNat + totalSize (entries.take position) ≤ binding.high.toNat) :
    ∃ address : UInt64,
      address.toNat = running.toNat + totalSize (entries.take position) ∧
      (binding.place running pending entries).2[position]? =
        some (binding.settle address (labelBefore? pending entries position) entry) := by
  -- The rest is placed from where the head ends, with the head as its pending label.
  induction entries generalizing running pending position with
  | nil => simp at found
  | cons head rest inductionHypothesis =>
      obtain ⟨fails, goesOn⟩ := toNat_step sound running head.size
      rw [place_cons inside]
      cases position with
      | zero =>
          simp only [List.getElem?_cons_zero, Option.some.injEq] at found
          subst found
          refine ⟨running, by simp, ?_⟩
          split <;> rfl
      | succ position =>
          rw [List.getElem?_cons_succ] at found
          rw [List.take_succ_cons, totalSize_cons] at visited ⊢
          have fitting : ¬binding.high < Address.saturatingAdd running head.size := by
            rw [fails]
            omega
          have next := goesOn fitting
          rw [if_neg fitting, List.getElem?_cons_succ, labelBefore?_cons_succ, ← Nat.add_assoc,
            ← next]
          exact inductionHypothesis (UInt64.not_lt.mp fitting) _ found (by omega)

@[simp] theorem overflowAt_settle (binding : Binding) (running : UInt64)
    (pending : Option EntryId) (entry : Entry) (reached : UInt64) :
    binding.overflowAt (binding.settle running pending entry) reached =
      binding.overflowAt entry reached := by
  simp [overflowAt]

/-- A second pass over what a pass has left, finished or not, finds nothing to do. -/
theorem place_place {binding : Binding} {running : UInt64} (inside : running ≤ binding.high)
    (pending : Option EntryId) (entries : List Entry) :
    binding.place running pending (binding.place running pending entries).2 =
      binding.place running pending entries := by
  induction entries generalizing running pending with
  | nil => rfl
  | cons entry rest inductionHypothesis =>
      rw [place_cons inside pending entry rest]
      by_cases behind : binding.high < Address.saturatingAdd running entry.size
      · rw [if_pos behind, place_cons inside, settle_size, if_pos behind, settle_settle,
          overflowAt_settle]
      · rw [if_neg behind, place_cons inside, settle_size, if_neg behind, settle_settle,
          settle_labelId?, inductionHypothesis (UInt64.not_lt.mp behind)]

end Binding

end RomLayout
