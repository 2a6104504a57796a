import RomLayout.Numeral

set_option autoImplicit false

/-!
Integers as YAML writes them: decimal without zeros in front, or in base 16, 8 or 2
behind `0x`, `0o` or `0b`. A sign stands in front of all that.
-/

namespace RomLayout.Yaml

def numeral? : List Char → Option Nat
  | '0' :: 'x' :: digits => Numeral.toNat? 16 digits
  | '0' :: 'o' :: digits => Numeral.toNat? 8 digits
  | '0' :: 'b' :: digits => Numeral.toNat? 2 digits
  | '0' :: _ :: _ => none
  | digits => Numeral.toNat? 10 digits

/-- A number that no minus sign may stand in front of. -/
def unsigned? : List Char → Option Nat
  | '+' :: digits => numeral? digits
  | digits => numeral? digits

def signed? : List Char → Option Int
  | '-' :: digits => (numeral? digits).map fun value => -(value : Int)
  | text => (unsigned? text).map fun value => (value : Int)

end RomLayout.Yaml
