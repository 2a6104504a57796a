import RomLayout.Numeral
import RomLayout.Numeral.Double

set_option autoImplicit false

/-!
JSON numbers as doubles. Of the digits only those are kept that fit into a word of 64
bits. What is kept and the power of ten are each rounded to a double, and the number
is finite if the product of the two is. So close to the greatest double, what decides
is the product of the rounded factors and not the number itself.
-/

namespace RomLayout.Json

/-- A number as it is written. The sign makes no difference here. -/
structure Number where
  whole : List Nat
  fraction : List Nat
  exponent : Int
  deriving DecidableEq

structure Scientific where
  significand : Nat
  exponent : Int
  deriving DecidableEq

namespace Number

def isExponentMark (character : Char) : Bool := character == 'e' || character == 'E'

def digitsIn (text : List Char) : List Nat := text.filterMap (Numeral.digit? 10)

/-- The parts of a number that follows the grammar. -/
def ofLiteral (literal : List Char) : Number :=
  let mantissa := literal.takeWhile (!isExponentMark ·)
  let power := literal.dropWhile (!isExponentMark ·)
  let size : Int := Numeral.value 10 (digitsIn power)
  { whole := digitsIn (mantissa.takeWhile (· != '.'))
    fraction := digitsIn (mantissa.dropWhile (· != '.'))
    exponent := if power.contains '-' then -size else size }

/-- Puts digits behind a number while it fits into a word. The digits that do not
fit are left. -/
def appendDigits (value : Nat) : List Nat → Nat × List Nat
  | [] => (value, [])
  | digit :: rest =>
      if value * 10 + digit < UInt64.size then appendDigits (value * 10 + digit) rest
      else (value, digit :: rest)

/-- The number without the digits that do not fit into a word. In front of the point
a lost digit counts as a zero. -/
def scientific (number : Number) : Scientific :=
  let (whole, lostWhole) := appendDigits 0 number.whole
  let (significand, lostFraction) := appendDigits whole number.fraction
  { significand
    exponent := number.exponent + lostWhole.length
      - (number.fraction.length - lostFraction.length : Nat) }

end Number

namespace Scientific

/-- The exponent of the greatest power of ten that is finite as a double. -/
def maxExponent : Int := 308

/-- Whether the product of the two doubles is finite. Only a positive power of ten
can make it infinite. -/
def isFinite (number : Scientific) : Bool :=
  if number.significand = 0 ∨ number.exponent ≤ 0 then true
  else if maxExponent < number.exponent then false
  else
    Numeral.nearestDouble number.significand
        * Numeral.nearestDouble (Nat.pow 10 number.exponent.toNat)
      < Numeral.infinityThreshold

end Scientific

end RomLayout.Json
