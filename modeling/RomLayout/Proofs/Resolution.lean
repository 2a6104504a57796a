import RomLayout.Proofs.Placement

set_option autoImplicit false

/-!
What resolving does to a section.

Where an entry goes is said without the pass: `Section.runningAt` adds up exact
sizes, and `labelBefore?` looks at the entry directly in front. Nothing that an entry
carried before the pass has a part in it.
-/

namespace RomLayout

namespace Section

/-- The exact physical address in front of the entry at a position. -/
def runningAt (current : Section) (position : Nat) : Nat :=
  current.binding.origin.toNat + totalSize (current.entries.take position)

/-- `placed` is what a correct pass makes of the entry at a position. -/
structure Places (current : Section) (position : Nat) (entry placed : Entry) : Prop where
  label : entry.payload.isLabel = true →
    ∃ address : UInt64,
      placed = { entry with address := some ⟨.cpu, address⟩ } ∧
      address.toNat + current.binding.bankOffset.toNat = current.runningAt position
  content : entry.payload.isLabel = false →
    ∃ address : UInt64,
      placed = { entry with
        address := some ⟨.physical, address⟩
        label := labelBefore? none current.entries position } ∧
      address.toNat = current.runningAt position

end Section

/-- The entries that are no labels take the bytes from `first` up to but without
`past`, one behind the other. -/
def Tiles : Nat → Nat → List Entry → Prop
  | first, past, [] => first = past
  | first, past, entry :: rest =>
      if entry.payload.isLabel then Tiles first past rest
      else
        (∃ address : UInt64, entry.address = some ⟨.physical, address⟩ ∧ address.toNat = first) ∧
          Tiles (first + entry.size.toNat) past rest

namespace Binding

theorem tiles_place {binding : Binding} (sound : binding.Sound) {running : UInt64}
    (pending : Option EntryId) (entries : List Entry)
    (fits : running.toNat + totalSize entries ≤ binding.high.toNat) :
    Tiles running.toNat (running.toNat + totalSize entries)
      (binding.place running pending entries).2 := by
  induction entries generalizing running pending with
  | nil => rfl
  | cons entry rest inductionHypothesis =>
      rw [totalSize_cons, ← Nat.add_assoc] at fits ⊢
      have inside : running ≤ binding.high := by
        rw [UInt64.le_iff_toNat_le]
        omega
      obtain ⟨fails, goesOn⟩ := toNat_step sound running entry.size
      have fitting : ¬binding.high < Address.saturatingAdd running entry.size := by
        rw [fails]
        omega
      have next := goesOn fitting
      have behind := inductionHypothesis entry.labelId? (by rw [next]; exact fits)
      rw [next] at behind
      rw [place_cons inside, if_neg fitting]
      unfold Tiles
      rw [settle_payload, settle_size]
      by_cases isLabel : entry.payload.isLabel
      · rw [if_pos isLabel]
        have empty : entry.size.toNat = 0 := by rw [size_of_isLabel isLabel]; rfl
        rwa [empty, Nat.add_zero] at behind ⊢
      · rw [if_neg isLabel]
        refine ⟨⟨running, ?_, rfl⟩, behind⟩
        simp [settle, isLabel]

end Binding

namespace Section

variable {current changed : Section} {size : UInt64}

theorem exists_toNat_eq {number : Nat} (small : number < UInt64.size) :
    ∃ word : UInt64, word.toNat = number :=
  ⟨UInt64.ofNat number, UInt64.toNat_ofNat_of_lt' small⟩

/-- The entries as the pass leaves them, whether it ends well or not. -/
def placedEntries (current : Section) : List Entry :=
  (current.binding.place current.binding.origin none current.entries).2

theorem resolve_ok_iff (sound : current.binding.Sound) (size : UInt64) (changed : Section) :
    current.resolve = (.ok size, changed) ↔
      current.binding.origin.toNat + totalSize current.entries ≤ current.binding.high.toNat ∧
        size.toNat = totalSize current.entries ∧
        changed = { current with entries := current.placedEntries, size := some size } := by
  have exact := Binding.place_ok_iff sound sound.origin_le_high none current.entries
  unfold resolve placedEntries
  split
  · rename_i reached entries equation
    rw [equation] at exact ⊢
    obtain ⟨fits, ends⟩ := (exact reached).mp rfl
    have apart : current.binding.origin ≤ reached := by
      rw [UInt64.le_iff_toNat_le]
      omega
    have length : (reached - current.binding.origin).toNat = totalSize current.entries := by
      rw [UInt64.toNat_sub_of_le _ _ apart]
      omega
    simp only [Prod.mk.injEq, Except.ok.injEq, fits, true_and]
    constructor
    · rintro ⟨rfl, rfl⟩
      exact ⟨length, rfl⟩
    · rintro ⟨sameLength, rfl⟩
      have same : reached - current.binding.origin = size :=
        UInt64.toNat_inj.mp (length.trans sameLength.symm)
      rw [same]
      exact ⟨rfl, rfl⟩
  · rename_i error entries equation
    simp only [Prod.mk.injEq, reduceCtorEq, false_and, false_iff, not_and]
    intro fits
    obtain ⟨reached, ends⟩ : ∃ reached : UInt64,
        reached.toNat = current.binding.origin.toNat + totalSize current.entries :=
      exists_toNat_eq (Nat.lt_of_le_of_lt fits (UInt64.toNat_lt _))
    have succeeds := (exact reached).mpr ⟨fits, ends⟩
    rw [equation] at succeeds
    cases succeeds

theorem places_settle (sound : current.binding.Sound) {position : Nat} (entry : Entry)
    {address : UInt64} (here : address.toNat = current.runningAt position) :
    current.Places position entry
      (current.binding.settle address (labelBefore? none current.entries position) entry) := by
  have mapped : current.binding.bankOffset ≤ address := by
    have atOrigin := sound.bankOffset_le_origin
    rw [UInt64.le_iff_toNat_le, here, runningAt]
    omega
  have mappedNat : current.binding.bankOffset.toNat ≤ address.toNat := mapped
  constructor
  · intro isLabel
    refine ⟨address - current.binding.bankOffset, by rw [Binding.settle, if_pos isLabel], ?_⟩
    rw [UInt64.toNat_sub_of_le _ _ mapped]
    omega
  · intro content
    exact ⟨address, by simp [Binding.settle, content], here⟩

/-- A pass that ends well has come to every entry. -/
theorem places_of_resolve (sound : current.binding.Sound)
    (resolved : current.resolve = (.ok size, changed)) {position : Nat} {entry : Entry}
    (found : current.entries[position]? = some entry) :
    ∃ placed, changed.entries[position]? = some placed ∧ current.Places position entry placed := by
  obtain ⟨fits, -, rfl⟩ := (resolve_ok_iff sound size changed).mp resolved
  have inFront := totalSize_take_le current.entries position
  obtain ⟨address, here, placed⟩ :=
    Binding.getElem?_place sound sound.origin_le_high none found (by omega)
  exact ⟨_, placed, places_settle sound entry here⟩

theorem length_placedEntries (current : Section) :
    current.placedEntries.length = current.entries.length :=
  Binding.length_place _ _ _ _

theorem tiles_of_resolve (sound : current.binding.Sound)
    (resolved : current.resolve = (.ok size, changed)) :
    Tiles current.binding.origin.toNat (current.binding.origin.toNat + size.toNat)
      changed.entries := by
  obtain ⟨fits, length, rfl⟩ := (resolve_ok_iff sound size changed).mp resolved
  rw [length]
  exact Binding.tiles_place sound none current.entries fits

/-- Resolving succeeds exactly if the exact sizes fit into the bank, and then every
entry stands where the sizes in front of it put it. -/
theorem resolve_exact {current : Section} (reachable : Reachable current) :
    ((∃ size, current.resolve.1 = .ok size) ↔
      current.binding.origin.toNat + totalSize current.entries ≤ current.binding.high.toNat) ∧
    ∀ size changed, current.resolve = (.ok size, changed) →
      size.toNat = totalSize current.entries ∧
      changed = { current with entries := changed.entries, size := some size } ∧
      changed.entries.length = current.entries.length ∧
      (∀ position entry, current.entries[position]? = some entry →
        ∃ placed, changed.entries[position]? = some placed ∧
          current.Places position entry placed) ∧
      Tiles current.binding.origin.toNat (current.binding.origin.toNat + size.toNat)
        changed.entries := by
  have sound := reachable.sound
  constructor
  · constructor
    · rintro ⟨size, succeeds⟩
      have resolved : current.resolve = (.ok size, current.resolve.2) := Prod.ext succeeds rfl
      exact ((resolve_ok_iff sound size _).mp resolved).1
    · intro fits
      obtain ⟨size, length⟩ : ∃ size : UInt64, size.toNat = totalSize current.entries :=
        exists_toNat_eq (Nat.lt_of_le_of_lt (Nat.le_trans (Nat.le_add_left _ _) fits)
          (UInt64.toNat_lt _))
      have resolved := (resolve_ok_iff sound size _).mpr ⟨fits, length, rfl⟩
      exact ⟨size, congrArg Prod.fst resolved⟩
  · intro size changed resolved
    obtain ⟨-, length, shape⟩ := (resolve_ok_iff sound size changed).mp resolved
    refine ⟨length, ?_, ?_, ?_, tiles_of_resolve sound resolved⟩
    · rw [shape]
    · rw [shape]
      exact current.length_placedEntries
    · intro position entry found
      exact places_of_resolve sound resolved found

/-- Two labels in a row and an empty block, after a pass that failed and a removal:
the section holds stale addresses and a stale label when it is resolved. -/
def staleRomx : Section :=
  (Edit.performAll emptyRomx
    [.append (.label "start") 1, .append (.instruction "jp" 3) 2, .resolve,
      .insert (.label "again") 1 3, .append (.data (.reserve 0xFFFFFFFFFFFFFFFF)) 4, .resolve,
      .remove 3, .append (.data (.reserve 0)) 5]).2

theorem reachable_staleRomx : Reachable staleRomx := Reachable.emptyRomx.performAll _

theorem resolve_exact_staleRomx :
    Reachable staleRomx ∧
      ∃ changed, staleRomx.resolve = (.ok 3, changed) ∧
        totalSize staleRomx.entries = 3 ∧ Tiles 0x8000 0x8003 changed.entries := by
  obtain ⟨length, -, -, -, tiles⟩ :=
    (resolve_exact reachable_staleRomx).2 3 staleRomx.resolve.2 rfl
  exact ⟨reachable_staleRomx, staleRomx.resolve.2, rfl, length.symm, tiles⟩

end Section

end RomLayout
