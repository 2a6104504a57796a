import RomLayout.Region
import RomLayout.Address.Hex
import RomLayout.FileSystem

set_option autoImplicit false

/-!
Everything that can go wrong, as causes. `Error.message` is the one place where a
cause becomes text, and `Error.location?` tells which line of a source file the
cause comes from, where there is one.
-/

namespace RomLayout

/-- A source file by its name, and an item in it by its source index. -/
structure Location where
  file : String
  index : Nat
  deriving DecidableEq

inductive BankFault where
  | notBanked
  | negative
  | outOfRange (maxBank : UInt64)
  deriving DecidableEq

/-- Content that does not belong into a storage class. -/
inductive Violation where
  | instructionInRam
  | initializedDataInRam
  | binaryInRam
  | variableInRom
  deriving DecidableEq

/-- An entry that ends `excess` bytes behind the end of its section. -/
structure Overflow where
  excess : UInt64
  start : UInt64
  limit : UInt64
  reached : UInt64
  deriving DecidableEq

/-- The bytes from `first` to `last`, both counted in, which the section `name`
wants and at least one of which the section `other` has. -/
structure Conflict where
  name : String
  other : String
  region : Region
  bank : UInt64
  first : UInt64
  last : UInt64
  deriving DecidableEq

inductive Error where
  | unknownRegion (location : Location) (name : String)
  | invalidBank (location : Location) (fault : BankFault)
  | offsetOutOfRange (location : Location) (window : Window)
  | illegalContent (location : Location) (violation : Violation)
  | sectionOverflow (location : Location) (overflow : Overflow)
  | includeFailed (location : Location) (path : Path) (cause : Fault)
  | sectionOverlap (conflict : Conflict)
  | sectionNotFound (number : Nat)
  | inputOutput (cause : Fault)
  | invalidDescription
  deriving DecidableEq

namespace BankFault

def message : BankFault → String
  | notBanked => "Unexpected bank index on non-bankable section"
  | negative => "Negative bank indexes are not allowed"
  | outOfRange maxBank =>
      "Invalid bank index, must be between 1 and " ++ Numeral.decimal maxBank.toNat

end BankFault

namespace Violation

def message : Violation → String
  | instructionInRam => "Instruction is not allowed in RAM segment"
  | initializedDataInRam => "Initialized DataBlock not allowed in RAM segment"
  | binaryInRam => "Binary include not allowed in RAM segment"
  | variableInRom => "Variable can not be put in ROM segment"

end Violation

namespace Error

def expectedRegions : String := ", ".intercalate Region.names

def message : Error → String
  | unknownRegion _ name =>
      "Unknown section region `" ++ name ++ "`, expected one of " ++ expectedRegions
  | invalidBank _ fault => fault.message
  | offsetOutOfRange _ window =>
      "Section offset out of range, must be between " ++ Hex.render window.low ++ " and "
        ++ Hex.render window.high
  | illegalContent _ violation => violation.message
  | sectionOverflow _ overflow =>
      "Entry exceeds section by " ++ Hex.render overflow.excess
        ++ " bytes, section ranges from address " ++ Hex.render overflow.start
        ++ " to " ++ Hex.render overflow.limit
        ++ ", but entry would end at address " ++ Hex.render overflow.reached ++ "."
  | includeFailed _ path _ => "Failed to include binary data `" ++ path.text ++ "`"
  | sectionOverlap conflict =>
      "Address conflict: " ++ conflict.name ++ " at " ++ Hex.render conflict.first ++ "-"
        ++ Hex.render conflict.last ++ " overlaps with " ++ conflict.other ++ " in "
        ++ conflict.region.name ++ "[" ++ Numeral.decimal conflict.bank.toNat ++ "]"
  | sectionNotFound number =>
      "Section #" ++ Numeral.decimal number ++ " is not part of this layout"
  | inputOutput cause => "IO error: " ++ cause.message
  | invalidDescription => "Invalid layout file: "

def location? : Error → Option Location
  | unknownRegion location _ => some location
  | invalidBank location _ => some location
  | offsetOutOfRange location _ => some location
  | illegalContent location _ => some location
  | sectionOverflow location _ => some location
  | includeFailed location _ _ => some location
  | sectionOverlap _ => none
  | sectionNotFound _ => none
  | inputOutput _ => none
  | invalidDescription => none

end Error

end RomLayout
