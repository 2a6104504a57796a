import RomLayout.Proofs.Checked.Section
import RomLayout.Proofs.Layout.Resolution
import RomLayout.Proofs.Overlap

set_option autoImplicit false

/-!
Layouts and the overlap check with every plain operation checked.

As for single sections, a sum or a difference that leaves the numbers of 64 bits gives no
result. The total is added up from the first section on, so every sum on the way is checked,
also in a pass that stops. `arithmetic_exact` says that no check ever fails.
-/

namespace RomLayout

namespace Span

def split? (span : Span) (first last : UInt64) (owner : String) : Option (List Span) := do
  let leading ←
    if span.first < first then do
      let before ← Address.sub? first 1
      pure [⟨span.first, before, none⟩]
    else pure []
  let trailing ←
    if last < span.last then do
      let behind ← Address.add? last 1
      pure [⟨behind, span.last, none⟩]
    else pure []
  return leading ++ ⟨first, last, some owner⟩ :: trailing

def occupy? (first last : UInt64) (owner : String) : List Span → Option (List Span)
  | [] => some []
  | span :: rest =>
      if span.contains first last then do
        let parts ← span.split? first last owner
        return parts ++ rest
      else do
        let others ← occupy? first last owner rest
        return span :: others

def claim? (spans : List Span) (first last : UInt64) (owner : String) :
    Option (Except String Unit × List Span) :=
  match holder? spans first last with
  | some other => some (.error other, spans)
  | none => (occupy? first last owner spans).map fun occupied => (.ok (), occupied)

/-- A bound is moved by one only where another bound keeps the room for it. -/
theorem split?_eq (span : Span) (first last : UInt64) (owner : String) :
    span.split? first last owner = some (span.split first last owner) := by
  have before : span.first < first → Address.sub? first 1 = some (first - 1) := by
    intro below
    apply Address.sub?_of_le
    have belowNat : span.first.toNat < first.toNat := below
    rw [UInt64.le_iff_toNat_le]
    exact Nat.lt_of_le_of_lt (Nat.zero_le _) belowNat
  have behind : last < span.last → Address.add? last 1 = some (last + 1) := by
    intro below
    apply Address.add?_of_lt
    exact Nat.lt_of_le_of_lt (show last.toNat + 1 ≤ span.last.toNat from below)
      (UInt64.toNat_lt_size _)
  unfold split? split
  by_cases leading : span.first < first <;> by_cases trailing : last < span.last <;>
    simp [leading, trailing, before, behind]

theorem occupy?_eq (first last : UInt64) (owner : String) (spans : List Span) :
    occupy? first last owner spans = some (occupy first last owner spans) := by
  induction spans with
  | nil => rfl
  | cons span rest inductionHypothesis =>
      unfold occupy? occupy
      by_cases contains : span.contains first last = true
      · simp [contains, split?_eq]
      · simp [contains, inductionHypothesis]

theorem claim?_eq (spans : List Span) (first last : UInt64) (owner : String) :
    claim? spans first last owner = some (claim spans first last owner) := by
  unfold claim? claim
  rw [occupy?_eq]
  cases holder? spans first last <;> rfl

end Span

namespace Occupancy

def claimSection? (occupancy : Occupancy) (current : Section) :
    Option (Except Error Unit × Occupancy) :=
  let binding := current.binding
  let size := current.size.getD 0
  if size = 0 then some (.ok (), occupancy)
  else do
    let first := binding.origin
    let past ← Address.add? first size
    let last ← Address.sub? past 1
    let conflict (other : String) : Error :=
      .sectionOverlap
        { name := binding.name, other, region := binding.region, bank := binding.bank,
          first, last }
    let (outcome, spans) ←
      Span.claim? (occupancy binding.region binding.bank) first last binding.name
    return (outcome.mapError conflict, occupancy.update binding.region binding.bank spans)

def claimSections? (occupancy : Occupancy) : List Section → Option (Except Error Unit × Occupancy)
  | [] => some (.ok (), occupancy)
  | current :: rest => do
      match ← occupancy.claimSection? current with
      | (.ok (), changed) => changed.claimSections? rest
      | (.error error, changed) => return (.error error, changed)

theorem claimSection?_eq (occupancy : Occupancy) {current : Section}
    (reachable : Reachable current) :
    occupancy.claimSection? current = some (occupancy.claimSection current) := by
  unfold claimSection? claimSection
  by_cases empty : current.size.getD 0 = 0
  · simp [empty]
  · have ends := reachable.origin_add_size_le
    have fits : current.binding.origin.toNat + (current.size.getD 0).toNat < UInt64.size :=
      Nat.lt_of_le_of_lt ends (UInt64.toNat_lt_size _)
    have sum := Address.toNat_of_add? (Address.add?_of_lt fits)
    have nonempty : (current.size.getD 0).toNat ≠ 0 :=
      fun zero => empty (UInt64.toNat_inj.mp zero)
    have positive : 1 ≤ current.binding.origin + current.size.getD 0 := by
      rw [UInt64.le_iff_toNat_le, sum]
      exact Nat.le_trans (Nat.one_le_iff_ne_zero.mpr nonempty) (Nat.le_add_left _ _)
    simp only [empty, if_false, Address.add?_of_lt fits, Address.sub?_of_le positive,
      Span.claim?_eq, Option.bind_eq_bind, Option.bind_some]
    rfl

theorem claimSections?_eq (occupancy : Occupancy) {sections : List Section}
    (reachable : ∀ current ∈ sections, Reachable current) :
    occupancy.claimSections? sections = some (occupancy.claimSections sections) := by
  induction sections generalizing occupancy with
  | nil => rfl
  | cons current rest inductionHypothesis =>
      obtain ⟨here, behind⟩ := List.forall_mem_cons.mp reachable
      rw [claimSections?, claimSections, claimSection?_eq occupancy here]
      rcases occupancy.claimSection current with ⟨error | _, changed⟩
      · rfl
      · exact inductionHypothesis changed behind

end Occupancy

def checkOverlaps? (sections : List Section) : Option (Except Error Unit) := do
  let outcome ← Occupancy.free.claimSections? sections
  return outcome.1

theorem checkOverlaps?_eq {sections : List Section}
    (reachable : ∀ current ∈ sections, Reachable current) :
    checkOverlaps? sections = some (checkOverlaps sections) := by
  simp [checkOverlaps?, checkOverlaps, Occupancy.claimSections?_eq _ reachable]

namespace Layout

/-- Sections resolved one after the other, `total` being the number of bytes in the ones in
front of them. -/
def resolveSections? (total : UInt64) :
    List Section → Option (Except Error UInt64 × List Section)
  | [] => some (.ok total, [])
  | current :: rest => do
      match ← current.resolve? with
      | (.error error, changed) => return (.error error, changed :: rest)
      | (.ok size, changed) =>
          let sum ← Address.add? total size
          let (result, others) ← resolveSections? sum rest
          return (result, changed :: others)

def resolve? (layout : Layout) : Option (Except Error UInt64 × Layout) := do
  let (result, sections) ← resolveSections? 0 layout.sections
  return (result, { layout with sections })

theorem resolveSections?_eq {total : UInt64} {sections : List Section}
    (sound : ∀ current ∈ sections, current.binding.Sound)
    (room : total.toNat + sections.length * Region.roomLimit < UInt64.size) :
    resolveSections? total sections =
      some ((resolveSections sections).1.map (total + ·), (resolveSections sections).2) := by
  induction sections generalizing total with
  | nil => simp [resolveSections?, resolveSections, Except.map]
  | cons current rest inductionHypothesis =>
      obtain ⟨here, behind⟩ := List.forall_mem_cons.mp sound
      rw [resolveSections?, Section.resolve?_eq here, resolveSections_cons]
      rcases outcome : current.resolve with ⟨error | size, changed⟩
      · rfl
      · -- Each section uses up at most its share of the room that is left.
        have fitting : size.toNat ≤ Region.roomLimit :=
          Section.size_le_roomLimit here (congrArg Prod.fst outcome)
        rw [List.length_cons, Nat.succ_mul] at room
        have small : total.toNat + size.toNat < UInt64.size := by omega
        have sum : (total + size).toNat = total.toNat + size.toNat :=
          Address.toNat_of_add? (Address.add?_of_lt small)
        have later : resolveSections? (total + size) rest = _ :=
          inductionHypothesis behind (by omega)
        simp only [Address.add?_of_lt small, later, Option.bind_eq_bind, Option.bind_some]
        cases (resolveSections rest).1 with
        | error error => rfl
        | ok others => simp [Except.map, UInt64.add_assoc]

theorem resolve?_eq {layout : Layout} (sound : ∀ current ∈ layout.sections, current.binding.Sound)
    (room : layout.sections.length * Region.roomLimit < UInt64.size) :
    layout.resolve? = some layout.resolve := by
  have summed : resolveSections? 0 layout.sections = _ :=
    resolveSections?_eq sound (by simpa using room)
  rw [resolve?, summed, resolve_eq]
  cases (resolveSections layout.sections).1 <;> simp [Except.map]

/-- No address arithmetic wraps: whatever is declared, and whatever has been done to a layout
of fewer than `2 ^ 48` sections, computing with checked operations gives the results that the
plain operations give. -/
theorem arithmetic_exact {layout : Layout} (reachable : layout.Reachable)
    (few : layout.sections.length < 2 ^ 48) :
    (∀ declaration : Declaration,
      declaration.bind? =
        some (declaration.bind.map fun bound => (bound, bound.binding.bankOffset))) ∧
    (∀ current ∈ layout.sections,
      current.binding.region.window? current.binding.bank = some current.binding.window ∧
      current.resolve? = some current.resolve ∧
      ∀ frame, current.summary? frame = some (current.summary frame)) ∧
    layout.resolve? = some layout.resolve ∧
    ∀ sections : List Section, sections ⊆ layout.sections →
      checkOverlaps? sections = some (RomLayout.checkOverlaps sections) := by
  have each := reachable.reachable_of_mem
  have sound := reachable.sound_of_mem
  refine ⟨Declaration.bind?_eq, ?_, ?_, ?_⟩
  · intro current member
    exact ⟨Region.window?_eq (sound current member).hasBank,
      Section.resolve?_eq (sound current member), (each current member).summary?_eq⟩
  · apply resolve?_eq sound
    exact Nat.lt_trans (Nat.mul_lt_mul_of_pos_right few (by decide)) (by decide)
  · intro sections part
    exact checkOverlaps?_eq fun current member => each current (part member)

/-- A section on the upper bound of the last bank, a full one, and one with an entry of the
greatest size behind another one. -/
def extremes : Layout :=
  Operation.performAll (.empty .empty)
    [.declare ⟨"main.gbc", "Top", 0, "ROMX", some 127, some 0x200000⟩,
      .edit 0 (.append (.label "end") 1), .declare ⟨"main.gbc", "Full", 2, "HRAM", none, none⟩,
      .edit 1 (.append (.slot 0x80) 3), .declare ⟨"main.gbc", "Huge", 4, "RAMX", some 7, none⟩,
      .edit 2 (.append (.slot 3) 5), .edit 2 (.append (.data (.reserve 0xFFFFFFFFFFFFFFFF)) 6),
      .resolve]

/-- The sum that reaches the greatest number is the saturating one; what is computed from it
does not wrap. -/
theorem arithmetic_exact_extremes :
    extremes.Reachable ∧ extremes.sections.length < 2 ^ 48 ∧
      extremes.resolve?.map (·.1) =
        some (.error (.sectionOverflow ⟨"main.gbc", 6⟩
          { excess := 0xFFFFFFFFFFFE7FFF, start := 0xC000, limit := 0x18000,
            reached := 0xFFFFFFFFFFFFFFFF })) ∧
      checkOverlaps? extremes.sections = some (.ok ()) ∧
      ∃ top ∈ extremes.sections, top.binding.origin = top.binding.high ∧
        ∀ frame, top.summary? frame = some (top.summary frame) := by
  have reachable : extremes.Reachable := (Reachable.empty _).performAll _
  have few : extremes.sections.length < 2 ^ 48 := by decide
  obtain ⟨-, each, resolved, overlaps⟩ := arithmetic_exact reachable few
  refine ⟨reachable, few, ?_, ?_, _, List.mem_cons_self, rfl, ?_⟩
  · rw [resolved]
    rfl
  · rw [overlaps _ (List.Subset.refl _)]
    rfl
  · exact (each _ List.mem_cons_self).2.2

end Layout

end RomLayout
