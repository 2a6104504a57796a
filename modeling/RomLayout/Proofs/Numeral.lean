import Mathlib.Algebra.GroupWithZero.Nat
import RomLayout.Numeral

set_option autoImplicit false

/-!
The digits of a number: how many there are, what they begin with, and that zeros in front make
no difference.
-/

namespace RomLayout.Numeral

theorem value_replicate_zero (base count : Nat) (digits : List Nat) :
    value base (List.replicate count 0 ++ digits) = value base digits := by
  induction count with
  | zero => rfl
  | succ count inductionHypothesis =>
      rw [List.replicate_succ, List.cons_append, ← inductionHypothesis, value, List.foldl_cons,
        Nat.zero_mul]
      rfl

/-- Zeros in front make no difference to a numeral. -/
theorem toNat?_padded {base : Nat} (large : 1 < base) (small : base ≤ 36) (count number : Nat) :
    toNat? base (List.replicate count '0' ++ ofNat base number) = some number := by
  have padded : List.replicate count '0' ++ ofNat base number =
      (List.replicate count 0 ++ digits base number).map digitChar := by
    rw [List.map_append, List.map_replicate]
    rfl
  have below : ∀ digit ∈ List.replicate count 0 ++ digits base number, digit < base := by
    rw [List.forall_mem_append]
    refine ⟨?_, fun digit member => digit_lt_of_mem_digits large member⟩
    intro digit member
    rw [List.eq_of_mem_replicate member]
    exact Nat.lt_trans Nat.zero_lt_one large
  have notEmpty : List.replicate count '0' ++ ofNat base number ≠ [] := by
    simp [ofNat, digits_ne_nil]
  rw [toNat?, if_neg notEmpty, padded, mapM_digit?_map small below, Option.map_some,
    value_replicate_zero, value_digits]

theorem length_digits_le {base : Nat} (large : 1 < base) {number : Nat} :
    ∀ {count : Nat}, number < base ^ (count + 1) → (digits base number).length ≤ count + 1 := by
  fun_induction digits base number with
  | case1 number isLarge inductionHypothesis =>
      intro count below
      cases count with
      | zero =>
          rw [Nat.pow_one] at below
          exact absurd below (Nat.not_lt.mpr isLarge.2)
      | succ count =>
          rw [List.length_append, List.length_singleton]
          apply Nat.add_le_add_right
          apply inductionHypothesis
          rw [Nat.div_lt_iff_lt_mul (Nat.zero_lt_of_lt large), ← Nat.pow_succ]
          exact below
  | case2 number small =>
      intro count _
      exact Nat.le_add_left 1 count

theorem isDigit_digitChar : ∀ digit, digit < 10 → (digitChar digit).isDigit := by
  decide

theorem isDigit_of_mem_ofNat {value : Nat} {character : Char}
    (member : character ∈ ofNat 10 value) : character.isDigit := by
  obtain ⟨digit, isDigit, rfl⟩ := List.mem_map.mp member
  exact isDigit_digitChar digit (digit_lt_of_mem_digits (by decide) isDigit)

theorem digits_of_pos {base value : Nat} (positive : 0 < value) :
    ∃ digit rest, digits base value = digit :: rest ∧ 0 < digit := by
  fun_induction digits base value with
  | case1 value large inductionHypothesis =>
      obtain ⟨digit, rest, split, digitPositive⟩ :=
        inductionHypothesis (Nat.div_pos large.2 (by omega))
      exact ⟨digit, rest ++ [value % base], by rw [split, List.cons_append], digitPositive⟩
  | case2 value small => exact ⟨value, [], rfl, positive⟩

theorem digitChar_ne_zero : ∀ digit, digit < 36 → 0 < digit → digitChar digit ≠ '0' := by
  decide

/-- The numeral of a positive number does not begin with a zero. -/
theorem exists_digits_cons {base value : Nat} (large : 1 < base) (small : base ≤ 36)
    (positive : 0 < value) :
    ∃ digit rest, digits base value = digit :: rest ∧ digit < base ∧ digitChar digit ≠ '0' := by
  obtain ⟨digit, rest, split, digitPositive⟩ := @digits_of_pos base value positive
  have below : digit < base := digit_lt_of_mem_digits large (split ▸ List.mem_cons_self)
  exact ⟨digit, rest, split, below,
    digitChar_ne_zero digit (Nat.lt_of_lt_of_le below small) digitPositive⟩

end RomLayout.Numeral
