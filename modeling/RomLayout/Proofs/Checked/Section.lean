import RomLayout.Proofs.Frames
import RomLayout.Proofs.Freshness

set_option autoImplicit false

/-!
Binding, resolving and summarizing with every plain operation checked.

A definition here computes what its namesake without the question mark computes, but a sum,
a difference or a product that leaves the numbers of 64 bits gives no result at all. Beside
each definition stands where it gives the result of its namesake. The sum that a pass takes
from entry to entry is a saturating one and needs no check.
-/

namespace RomLayout

namespace Address

def mul? (left right : UInt64) : Option UInt64 :=
  if left.toNat * right.toNat < UInt64.size then some (left * right) else none

theorem mul?_of_lt {left right : UInt64} (small : left.toNat * right.toNat < UInt64.size) :
    mul? left right = some (left * right) := by
  rw [mul?, if_pos small]

theorem add?_of_lt {left right : UInt64} (small : left.toNat + right.toNat < UInt64.size) :
    add? left right = some (left + right) := by
  rw [add?, if_pos small]

end Address

namespace Region

def windowLow? (region : Region) (bank : UInt64) : Option UInt64 :=
  match region.banking with
  | none => some region.base
  | some banking =>
      if bank = 0 then some region.base
      else do
        let steps ← Address.sub? bank 1
        let distance ← Address.mul? steps banking.bankSize
        Address.add? region.base distance

def window? (region : Region) (bank : UInt64) : Option Window := do
  let low ← region.windowLow? bank
  let high ← Address.add? low region.size
  return ⟨low, high⟩

theorem windowLow?_eq {region : Region} {bank : UInt64} (hasBank : region.HasBank bank) :
    region.windowLow? bank = some (region.windowLow bank) := by
  have small := windowLow_add_size_le hasBank
  have limit : windowLimit < UInt64.size := by decide
  rw [toNat_windowLow hasBank, bankDistance] at small
  -- The product and the sum stay below the end of the window.
  unfold windowLow? windowLow
  cases banked : region.banking with
  | none => rfl
  | some banking =>
      by_cases zero : bank = 0
      · simp [zero]
      · rw [banked] at small
        dsimp only at small
        have positive : 1 ≤ bank := by simpa [defaultBank, isBanked, banked] using hasBank.1
        have steps : (bank - 1).toNat = bank.toNat - 1 := UInt64.toNat_sub_of_le _ _ positive
        have product : (bank - 1).toNat * banking.bankSize.toNat < UInt64.size := by
          rw [steps]
          omega
        have distance : ((bank - 1) * banking.bankSize).toNat =
            (bank.toNat - 1) * banking.bankSize.toNat := by
          rw [UInt64.toNat_mul, Nat.mod_eq_of_lt product, steps]
        have sum : region.base.toNat + ((bank - 1) * banking.bankSize).toNat < UInt64.size := by
          rw [distance]
          omega
        simp [zero, Address.sub?_of_le positive, Address.mul?_of_lt product,
          Address.add?_of_lt sum]

theorem window?_eq {region : Region} {bank : UInt64} (hasBank : region.HasBank bank) :
    region.window? bank = some (region.window bank) := by
  have small := windowLow_add_size_le hasBank
  have fits : (region.windowLow bank).toNat + region.size.toNat < UInt64.size :=
    Nat.lt_of_le_of_lt small (by decide)
  simp [window?, windowLow?_eq hasBank, Address.add?_of_lt fits, window]

end Region

theorem Binding.Sound.base_le_low {binding : Binding} (sound : binding.Sound) :
    binding.region.base ≤ binding.low := by
  rw [UInt64.le_iff_toNat_le, sound.toNat_low]
  exact Nat.le_add_right _ _

namespace Declaration

def binding? (declaration : Declaration) : Option (Except Error Binding) :=
  match Region.ofName? declaration.region with
  | none => some (.error (.unknownRegion declaration.location declaration.region))
  | some region =>
      match bankIn region declaration.bank with
      | .error fault => some (.error (.invalidBank declaration.location fault))
      | .ok bank => do
          let window ← region.window? bank
          let bound : Binding :=
            { file := declaration.file, name := declaration.name, index := declaration.index,
              region, bank, declared := declaration.offset }
          match declaration.offset with
          | none => some (.ok bound)
          | some offset =>
              if window.low ≤ offset ∧ offset ≤ window.high then some (.ok bound)
              else some (.error (.offsetOutOfRange declaration.location window))

/-- The section together with its bank offset. -/
def bind? (declaration : Declaration) : Option (Except Error (Section × UInt64)) := do
  match ← declaration.binding? with
  | .error error => return .error error
  | .ok binding =>
      let bankOffset ← Address.sub? binding.low binding.region.base
      return .ok (binding.emptySection, bankOffset)

theorem binding?_eq (declaration : Declaration) :
    declaration.binding? = some declaration.binding := by
  unfold binding? binding
  cases Region.ofName? declaration.region with
  | none => rfl
  | some region =>
      dsimp only
      cases chosen : bankIn region declaration.bank with
      | error fault => rfl
      | ok bank =>
          simp only [Region.window?_eq (hasBank_of_bankIn chosen), Option.bind_eq_bind,
            Option.bind_some]
          cases declaration.offset with
          | none => rfl
          | some offset =>
              dsimp only
              split <;> rfl

theorem bind?_eq (declaration : Declaration) :
    declaration.bind? =
      some (declaration.bind.map fun bound => (bound, bound.binding.bankOffset)) := by
  unfold bind? bind
  rw [binding?_eq]
  cases accepted : declaration.binding with
  | error error => rfl
  | ok binding =>
      have aboveBase := (binding_sound accepted).base_le_low
      simp only [Option.bind_eq_bind, Option.bind_some, Address.sub?_of_le aboveBase]
      rfl

end Declaration

namespace Binding

def overflowAt? (binding : Binding) (entry : Entry) (reached : UInt64) : Option Error := do
  let excess ← Address.sub? reached binding.high
  return .sectionOverflow ⟨binding.file, entry.index⟩
    { excess, start := binding.bankOffset, limit := binding.high, reached }

def place? (binding : Binding) (running : UInt64) (pending : Option EntryId) :
    List Entry → Option (Except Error UInt64 × List Entry)
  | [] => some (.ok running, [])
  | entry :: rest =>
      if entry.payload.isLabel then do
        let address ← Address.sub? running binding.bankOffset
        let (result, others) ← binding.place? running (some entry.id) rest
        return (result, { entry with address := some ⟨.cpu, address⟩ } :: others)
      else
        let placed := { entry with address := some ⟨.physical, running⟩, label := pending }
        let next := Address.saturatingAdd running entry.size
        if binding.high < next then do
          let error ← binding.overflowAt? entry next
          return (.error error, placed :: rest)
        else do
          let (result, others) ← binding.place? next none rest
          return (result, placed :: others)

theorem place?_eq {binding : Binding} (sound : binding.Sound) {running : UInt64}
    (atLeast : binding.origin ≤ running) (pending : Option EntryId) (entries : List Entry) :
    binding.place? running pending entries = some (binding.place running pending entries) := by
  induction entries generalizing running pending with
  | nil => rfl
  | cons entry rest inductionHypothesis =>
      unfold place? place
      by_cases isLabel : entry.payload.isLabel
      · simp [isLabel, Address.sub?_of_le (sound.bankOffset_le atLeast),
          inductionHypothesis atLeast]
      · by_cases behind : binding.high < Address.saturatingAdd running entry.size
        · simp [isLabel, behind, overflowAt?, overflowAt,
            Address.sub?_of_le (UInt64.le_of_lt behind)]
        · have later := UInt64.le_trans atLeast (le_saturatingAdd running entry.size)
          simp [isLabel, behind, inductionHypothesis later]

end Binding

namespace Section

def resolve? (current : Section) : Option (Except Error UInt64 × Section) := do
  match ← current.binding.place? current.binding.origin none current.entries with
  | (.ok reached, entries) =>
      let size ← Address.sub? reached current.binding.origin
      return (.ok size, { current with entries, size := some size })
  | (.error error, entries) => return (.error error, { current with entries })

def beginning? (current : Section) : Frame → Option UInt64
  | .physical => some current.binding.origin
  | .cpu => Address.sub? current.binding.origin current.binding.bankOffset

def summary? (current : Section) (frame : Frame) : Option String := do
  let first ← current.beginning? frame
  let past ← Address.add? first (current.size.getD 0)
  return current.binding.name ++ " in " ++ current.binding.region.name ++ "["
    ++ Numeral.decimal current.binding.bank.toNat ++ "] at " ++ Hex.render first ++ "-"
    ++ Hex.render past

variable {current : Section}

theorem resolve?_eq (sound : current.binding.Sound) : current.resolve? = some current.resolve := by
  have placed := Binding.place?_eq sound (UInt64.le_refl _) none current.entries
  have exact := Binding.place_ok_iff sound sound.origin_le_high none current.entries
  unfold resolve? resolve
  rw [placed]
  rcases outcome : current.binding.place current.binding.origin none current.entries with
    ⟨_ | reached, entries⟩
  · rfl
  · rw [outcome] at exact
    have ends := ((exact reached).mp rfl).2
    have behind : current.binding.origin ≤ reached := by
      rw [UInt64.le_iff_toNat_le, ends]
      exact Nat.le_add_right _ _
    simp [Address.sub?_of_le behind]

theorem beginning?_eq (sound : current.binding.Sound) (frame : Frame) :
    current.beginning? frame = some (current.beginning frame) := by
  cases frame with
  | cpu => exact Address.sub?_of_le (sound.bankOffset_le (UInt64.le_refl _))
  | physical => rfl

theorem beginning_le_origin (sound : current.binding.Sound) (frame : Frame) :
    (current.beginning frame).toNat ≤ current.binding.origin.toNat := by
  cases frame with
  | cpu =>
      rw [beginning, UInt64.toNat_sub_of_le _ _ (sound.bankOffset_le (UInt64.le_refl _))]
      exact Nat.sub_le _ _
  | physical => exact Nat.le_refl _

end Section

/-- Whatever size a section records, it ends inside its bank. -/
theorem Reachable.origin_add_size_le {current : Section} (reachable : Reachable current) :
    current.binding.origin.toNat + (current.size.getD 0).toNat ≤ current.binding.high.toNat := by
  cases recorded : current.size with
  | none => exact reachable.sound.origin_le_high
  | some size => exact (reachable.recorded recorded).2

theorem Reachable.summary?_eq {current : Section} (reachable : Reachable current) (frame : Frame) :
    current.summary? frame = some (current.summary frame) := by
  have ends := reachable.origin_add_size_le
  have begins := Section.beginning_le_origin reachable.sound frame
  have bound := UInt64.toNat_lt_size current.binding.high
  have fits : (current.beginning frame).toNat + (current.size.getD 0).toNat < UInt64.size := by
    omega
  simp [Section.summary?, Section.summary, Section.beginning?_eq reachable.sound,
    Address.add?_of_lt fits]

end RomLayout
