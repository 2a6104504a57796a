import RomLayout.Numeral

set_option autoImplicit false

/-!
Hexadecimal text of an address: a dollar sign and at least four digits.
-/

namespace RomLayout.Hex

/-- Fewest digits of an address. -/
def width : Nat := 4

/-- Zeros in front fill the numeral up to the width. -/
def digits (address : UInt64) : List Char :=
  let numeral := Numeral.ofNat 16 address.toNat
  List.replicate (width - numeral.length) '0' ++ numeral

/-- The text of an address, such as `$0150` or `$10000`. -/
def render (address : UInt64) : String := String.ofList ('$' :: digits address)

end RomLayout.Hex
