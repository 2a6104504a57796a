import RomLayout.Section.Basic

set_option autoImplicit false

/-!
Windows and bindings in exact numbers.

Every bank that a declaration can choose has a window far below the highest
address, so no sum in the window arithmetic wraps. A binding that comes from a
declaration keeps its origin inside that window.
-/

namespace RomLayout

theorem exists_of_map_ok {Failure Source Target : Type} {outcome : Except Failure Source}
    {step : Source → Target} {result : Target} (mapped : outcome.map step = .ok result) :
    ∃ value, outcome = .ok value ∧ step value = result := by
  cases outcome with
  | error failure => cases mapped
  | ok value =>
      cases mapped
      exact ⟨value, rfl, rfl⟩

namespace Region

/-- The banks that a region can be bound to. -/
def HasBank (region : Region) (bank : UInt64) : Prop :=
  region.defaultBank ≤ bank ∧ bank ≤ region.maxBank

instance (region : Region) (bank : UInt64) : Decidable (region.HasBank bank) :=
  inferInstanceAs (Decidable (_ ∧ _))

/-- Exact distance between two consecutive banks. -/
def bankDistance (region : Region) : Nat :=
  match region.banking with
  | some banking => banking.bankSize.toNat
  | none => 0

/-- No window reaches behind the last bank of ROMX. -/
def windowLimit : Nat := 0x200000

theorem toNat_windowLow {region : Region} {bank : UInt64} (hasBank : region.HasBank bank) :
    (region.windowLow bank).toNat =
      region.base.toNat + (bank.toNat - 1) * region.bankDistance := by
  have atLeast : region.defaultBank.toNat ≤ bank.toNat := hasBank.1
  have atMost : bank.toNat ≤ region.maxBank.toNat := hasBank.2
  unfold windowLow bankDistance
  cases equation : region.banking with
  | none => simp
  | some banking =>
      have banked : region.isBanked = true := by simp [isBanked, equation]
      have first : 1 ≤ bank.toNat := by simpa [defaultBank, banked] using atLeast
      have nonzero : bank ≠ 0 := by
        rintro rfl
        exact absurd first (by decide)
      have predecessor : (bank - 1).toNat = bank.toNat - 1 :=
        UInt64.toNat_sub_of_le _ _ first
      have small : region.base.toNat + (bank.toNat - 1) * banking.bankSize.toNat < 2 ^ 64 := by
        have last : bank.toNat ≤ banking.maxBank.toNat := by simpa [maxBank, equation] using atMost
        cases region <;> simp only [Region.banking, Option.some.injEq, reduceCtorEq] at equation
        all_goals
          subst equation
          simp only [base, UInt64.reduceToNat] at last ⊢
          omega
      simp only
      rw [if_neg nonzero, UInt64.toNat_add, UInt64.toNat_mul, predecessor,
        Nat.mod_eq_of_lt (by omega : (bank.toNat - 1) * banking.bankSize.toNat < 2 ^ 64),
        Nat.mod_eq_of_lt small]

theorem windowLow_add_size_le {region : Region} {bank : UInt64} (hasBank : region.HasBank bank) :
    (region.windowLow bank).toNat + region.size.toNat ≤ windowLimit := by
  have atMost : bank.toNat ≤ region.maxBank.toNat := hasBank.2
  rw [toNat_windowLow hasBank]
  cases region
  all_goals
    simp only [base, size, bankDistance, banking, maxBank, windowLimit,
      UInt64.reduceToNat] at atMost ⊢
    omega

theorem toNat_windowHigh {region : Region} {bank : UInt64} (hasBank : region.HasBank bank) :
    (region.window bank).high.toNat = (region.windowLow bank).toNat + region.size.toNat := by
  have small := windowLow_add_size_le hasBank
  unfold windowLimit at small
  rw [window, UInt64.toNat_add]
  exact Nat.mod_eq_of_lt (by omega)

end Region

namespace Declaration

/-- A number that is not negative stays the same without its sign. -/
theorem toNat_toUInt64 {chosen : Int64} (natural : ¬chosen < 0) :
    (chosen.toUInt64.toNat : Int) = chosen.toInt := by
  have atLeast : 0 ≤ chosen := Int64.not_lt.mp natural
  have nonneg : 0 ≤ chosen.toInt := Int64.le_iff_toInt_le.mp atLeast
  rw [Int64.toNat_toUInt64_of_le atLeast]
  exact Int.toNat_of_nonneg nonneg

theorem hasBank_of_chosen {region : Region} {chosen : Int64}
    (banked : ¬(0 < chosen ∧ ¬region.isBanked)) (natural : ¬chosen < 0)
    (inRange : ¬(region.isBanked ∧ (chosen < 1 ∨ region.maxBank < chosen.toUInt64))) :
    region.HasBank chosen.toUInt64 := by
  have same := toNat_toUInt64 natural
  have one : (1 : Int64).toInt = 1 := rfl
  have zero : (0 : Int64).toInt = 0 := rfl
  rw [Int64.lt_iff_toInt_lt] at natural
  simp only [Int64.lt_iff_toInt_lt, UInt64.lt_iff_toNat_lt] at banked inRange
  unfold Region.HasBank
  rw [UInt64.le_iff_toNat_le, UInt64.le_iff_toNat_le]
  by_cases switched : region.isBanked
  · have bounds : 1 ≤ chosen.toUInt64.toNat ∧ chosen.toUInt64.toNat ≤ region.maxBank.toNat := by
      simp only [switched, true_and] at inRange
      omega
    simpa [Region.defaultBank, switched] using bounds
  · have isZero : chosen.toUInt64.toNat = 0 := by
      simp only [switched, Bool.false_eq_true, not_false_eq_true, and_true] at banked
      omega
    simp [isZero, Region.defaultBank, switched]

theorem hasBank_of_bankIn {region : Region} {bank : Option Int64} {chosen : UInt64}
    (found : bankIn region bank = .ok chosen) : region.HasBank chosen := by
  unfold bankIn at found
  extract_lets chosen at found
  split at found
  · contradiction
  · rename_i banked
    split at found
    · contradiction
    · rename_i natural
      split at found
      · contradiction
      · rename_i inRange
        cases found
        exact hasBank_of_chosen banked natural inRange

end Declaration

namespace Binding

/-- The section that binding starts with. -/
def emptySection (binding : Binding) : Section :=
  { binding, entries := [], macroCalls := [], size := none, nextId := 0 }

/-- What a declaration promises of its binding: a bank of the region, and an
origin in the window of this bank, bounds counted in. -/
structure Sound (binding : Binding) : Prop where
  hasBank : binding.region.HasBank binding.bank
  low_le_origin : binding.low ≤ binding.origin
  origin_le_high : binding.origin ≤ binding.high

namespace Sound

variable {binding : Binding}

theorem of_undeclared (hasBank : binding.region.HasBank binding.bank)
    (undeclared : binding.declared = none) : binding.Sound := by
  have atLow : binding.origin = binding.low := by rw [origin, undeclared, Option.getD_none]
  have lowAtMost : binding.low ≤ binding.high := by
    rw [UInt64.le_iff_toNat_le, high, window, Region.toNat_windowHigh hasBank]
    exact Nat.le_add_right _ _
  exact ⟨hasBank, UInt64.le_of_eq atLow.symm, atLow ▸ lowAtMost⟩

theorem of_declared (hasBank : binding.region.HasBank binding.bank) {offset : UInt64}
    (declared : binding.declared = some offset) (atLeast : binding.low ≤ offset)
    (atMost : offset ≤ binding.high) : binding.Sound := by
  have atOffset : binding.origin = offset := by rw [origin, declared, Option.getD_some]
  exact ⟨hasBank, atOffset ▸ atLeast, atOffset ▸ atMost⟩

theorem toNat_high (sound : binding.Sound) :
    binding.high.toNat = binding.low.toNat + binding.region.size.toNat :=
  Region.toNat_windowHigh sound.hasBank

theorem high_le_limit (sound : binding.Sound) : binding.high.toNat ≤ Region.windowLimit := by
  rw [sound.toNat_high]
  exact Region.windowLow_add_size_le sound.hasBank

theorem toNat_low (sound : binding.Sound) :
    binding.low.toNat = binding.region.base.toNat + binding.bankOffset.toNat := by
  have aboveBase : binding.region.base ≤ binding.low := by
    rw [UInt64.le_iff_toNat_le, low, window, Region.window, Region.toNat_windowLow sound.hasBank]
    exact Nat.le_add_right _ _
  have aboveBaseNat : binding.region.base.toNat ≤ binding.low.toNat := aboveBase
  rw [bankOffset, UInt64.toNat_sub_of_le _ _ aboveBase]
  omega

theorem bankOffset_le_origin (sound : binding.Sound) :
    binding.bankOffset.toNat ≤ binding.origin.toNat := by
  have atLeast : binding.low.toNat ≤ binding.origin.toNat := sound.low_le_origin
  have equation := sound.toNat_low
  omega

end Sound

end Binding

namespace Declaration

/-- A declaration that is accepted is bound inside the window of its bank. -/
theorem binding_sound {declaration : Declaration} {bound : Binding}
    (accepted : declaration.binding = .ok bound) : bound.Sound := by
  unfold binding at accepted
  split at accepted
  · contradiction
  · rename_i region regionFound
    split at accepted
    · contradiction
    · rename_i bank bankFound
      have hasBank := hasBank_of_bankIn bankFound
      split at accepted
      · rename_i undeclared
        cases accepted
        exact .of_undeclared hasBank undeclared
      · rename_i offset declared
        dsimp only at accepted
        split at accepted
        · rename_i inside
          cases accepted
          exact .of_declared hasBank declared inside.1 inside.2
        · contradiction

theorem bind_ok {declaration : Declaration} {current : Section}
    (accepted : declaration.bind = .ok current) :
    ∃ binding, declaration.binding = .ok binding ∧ current = binding.emptySection := by
  obtain ⟨binding, bound, rfl⟩ := exists_of_map_ok accepted
  exact ⟨binding, bound, rfl⟩

end Declaration

end RomLayout
