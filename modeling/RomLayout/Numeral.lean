set_option autoImplicit false

/-!
Natural numbers as digits of a base, and digits as characters. Letters count on
from nine. They are written in upper case and read in either case.
-/

namespace RomLayout.Numeral

/-- The digits of a number, the highest one first and no zero in front. -/
def digits (base value : Nat) : List Nat :=
  if _large : 1 < base ∧ base ≤ value then
    digits base (value / base) ++ [value % base]
  else [value]
termination_by value
decreasing_by exact Nat.div_lt_self (by omega) (by omega)

def value (base : Nat) (digits : List Nat) : Nat :=
  digits.foldl (fun value digit => value * base + digit) 0

def digitChar (digit : Nat) : Char :=
  if digit < 10 then Char.ofNat (digit + '0'.toNat)
  else Char.ofNat (digit - 10 + 'A'.toNat)

/-- The digit that a character stands for in any base that has it. -/
def charDigit? (character : Char) : Option Nat :=
  if '0' ≤ character ∧ character ≤ '9' then some (character.toNat - '0'.toNat)
  else if 'A' ≤ character ∧ character ≤ 'Z' then some (character.toNat - 'A'.toNat + 10)
  else if 'a' ≤ character ∧ character ≤ 'z' then some (character.toNat - 'a'.toNat + 10)
  else none

def digit? (base : Nat) (character : Char) : Option Nat :=
  (charDigit? character).filter (· < base)

def ofNat (base value : Nat) : List Char := (digits base value).map digitChar

/-- The number that a numeral stands for; no text without digits is a numeral. -/
def toNat? (base : Nat) (numeral : List Char) : Option Nat :=
  if numeral = [] then none else (numeral.mapM (digit? base)).map (value base)

def decimal (value : Nat) : String := String.ofList (ofNat 10 value)

theorem digits_ne_nil (base value : Nat) : digits base value ≠ [] := by
  rw [digits]
  split <;> simp

theorem value_append_singleton (base digit : Nat) (digits : List Nat) :
    value base (digits ++ [digit]) = value base digits * base + digit := by
  simp [value]

theorem value_digits (base number : Nat) : value base (digits base number) = number := by
  fun_induction digits base number with
  | case1 number large inductionHypothesis =>
      rw [value_append_singleton, inductionHypothesis, Nat.mul_comm]
      exact Nat.div_add_mod number base
  | case2 number small => simp [value]

theorem digit_lt_of_mem_digits {base number digit : Nat} (large : 1 < base)
    (member : digit ∈ digits base number) : digit < base := by
  fun_induction digits base number with
  | case1 number condition inductionHypothesis =>
      rcases List.mem_append.mp member with inFront | last
      · exact inductionHypothesis inFront
      · rw [List.mem_singleton.mp last]
        exact Nat.mod_lt _ (by omega)
  | case2 number condition =>
      rw [List.mem_singleton.mp member]
      omega

theorem charDigit?_digitChar : ∀ digit, digit < 36 → charDigit? (digitChar digit) = some digit := by
  decide

theorem digit?_digitChar {base digit : Nat} (small : base ≤ 36) (below : digit < base) :
    digit? base (digitChar digit) = some digit := by
  rw [digit?, charDigit?_digitChar digit (by omega)]
  simp [below]

theorem mapM_digit?_map {base : Nat} (small : base ≤ 36) {digits : List Nat}
    (below : ∀ digit ∈ digits, digit < base) :
    (digits.map digitChar).mapM (digit? base) = some digits := by
  induction digits with
  | nil => rfl
  | cons digit rest inductionHypothesis =>
      simp [digit?_digitChar small (below digit (by simp)),
        inductionHypothesis fun other member => below other (by simp [member])]

theorem toNat?_ofNat {base : Nat} (large : 1 < base) (small : base ≤ 36) (number : Nat) :
    toNat? base (ofNat base number) = some number := by
  rw [toNat?, ofNat, if_neg (by simp [digits_ne_nil]),
    mapM_digit?_map small fun digit member => digit_lt_of_mem_digits large member,
    Option.map_some, value_digits]

end RomLayout.Numeral
