set_option autoImplicit false

/-!
Natural numbers as doubles: 53 binary digits, and a tie goes to the even neighbour.
A number that is too large for that is infinite.
-/

namespace RomLayout.Numeral

def doublePrecision : Nat := 53

/-- The quotient that is nearest, the even one of two. -/
def roundedQuotient (value divisor : Nat) : Nat :=
  let quotient := value / divisor
  let twice := 2 * (value % divisor)
  if divisor < twice ∨ (twice = divisor ∧ quotient % 2 = 1) then quotient + 1 else quotient

/-- The nearest number with the digits of a double, however large. -/
def nearestDouble (value : Nat) : Nat :=
  let unit := Nat.pow 2 (value.log2 + 1 - doublePrecision)
  roundedQuotient value unit * unit

/-- The least number that is no nearer to the greatest double than to the one that
would follow it. -/
def infinityThreshold : Nat := Nat.pow 2 1024 - Nat.pow 2 970

theorem roundedQuotient_one (value : Nat) : roundedQuotient value 1 = value := by
  simp [roundedQuotient, Nat.mod_one]

theorem nearestDouble_of_lt {value : Nat} (small : value < Nat.pow 2 doublePrecision) :
    nearestDouble value = value := by
  have few : value.log2 + 1 - doublePrecision = 0 := by
    by_cases zero : value = 0
    · simp [zero, doublePrecision]
    · have := (Nat.log2_lt zero).mpr small
      omega
  simp [nearestDouble, few, roundedQuotient_one]

end RomLayout.Numeral
