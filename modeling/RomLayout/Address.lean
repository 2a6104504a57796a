set_option autoImplicit false

/-!
Addresses in two frames. The processor sees a bank through the window of its
region; the flattened image holds all banks behind one another. The distance
between both views is the bank offset of a section.
-/

namespace RomLayout

inductive Frame where
  /-- What the processor sees. -/
  | cpu
  /-- Position in the flattened image. -/
  | physical
  deriving DecidableEq

structure Address where
  frame : Frame
  value : UInt64
  deriving DecidableEq

namespace Address

def add? (left right : UInt64) : Option UInt64 :=
  if left.toNat + right.toNat < UInt64.size then some (left + right) else none

def sub? (left right : UInt64) : Option UInt64 :=
  if right ≤ left then some (left - right) else none

/-- Sum of two sizes, cut off at the highest address. -/
def saturatingAdd (left right : UInt64) : UInt64 := (add? left right).getD (0 - 1)

/-- The value of an address in a frame: `physical = cpu + bankOffset`. -/
def to? (address : Address) (frame : Frame) (bankOffset : UInt64) : Option UInt64 :=
  match address.frame, frame with
  | .cpu, .cpu => some address.value
  | .physical, .physical => some address.value
  | .cpu, .physical => add? address.value bankOffset
  | .physical, .cpu => sub? address.value bankOffset

theorem toNat_of_add? {left right sum : UInt64} (found : add? left right = some sum) :
    sum.toNat = left.toNat + right.toNat := by
  simp only [add?] at found
  split at found
  · rename_i small
    cases found
    rw [UInt64.toNat_add]
    exact Nat.mod_eq_of_lt small
  · contradiction

theorem toNat_saturatingAdd (left right : UInt64) :
    (saturatingAdd left right).toNat = min (left.toNat + right.toNat) (UInt64.size - 1) := by
  by_cases small : left.toNat + right.toNat < UInt64.size
  · have found : add? left right = some (left + right) := by simp [add?, small]
    rw [saturatingAdd, found, Option.getD_some, toNat_of_add? found]
    omega
  · have missing : add? left right = none := by simp [add?, small]
    rw [saturatingAdd, missing, Option.getD_none]
    have top : ((0 : UInt64) - 1).toNat = UInt64.size - 1 := by decide
    omega

end Address

end RomLayout
