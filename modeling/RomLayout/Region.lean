import RomLayout.Numeral

set_option autoImplicit false

/-!
The memory regions of the address map, and the part of the flattened image that
each bank of a region occupies.

A region without bank switching owns one window. On a banked region, bank `n`
stands `n - 1` bank sizes behind the first one.
-/

namespace RomLayout

/-- What a region can hold: code and constants, or variables. -/
inductive Storage where
  | readOnly
  | readWrite
  deriving DecidableEq

structure Banking where
  /-- Distance between two consecutive banks in the flattened image. -/
  bankSize : UInt64
  maxBank : UInt64
  /-- Whether every bank is reached through the same processor window. -/
  zeroBanked : Bool
  deriving DecidableEq

/-- Physical addresses from `low` up to `high`. A section may start on `high`,
but none of its bytes can stand there. -/
structure Window where
  low : UInt64
  high : UInt64
  deriving DecidableEq

inductive Region where
  | rom0
  | romx
  | wram0
  | wramx
  | hram
  | ram
  | ramx
  deriving DecidableEq

namespace Region

def all : List Region := [rom0, romx, wram0, wramx, hram, ram, ramx]

def name : Region → String
  | rom0 => "ROM0"
  | romx => "ROMX"
  | wram0 => "WRAM0"
  | wramx => "WRAMX"
  | hram => "HRAM"
  | ram => "RAM"
  | ramx => "RAMX"

def base : Region → UInt64
  | rom0 => 0x0000
  | romx => 0x4000
  | wram0 => 0xC000
  | wramx => 0xD000
  | hram => 0xFF80
  | ram => 0xA000
  | ramx => 0xA000

def size : Region → UInt64
  | rom0 => 0x4000
  | romx => 0x4000
  | wram0 => 0x1000
  | wramx => 0x1000
  | hram => 0x0080
  | ram => 0x2000
  | ramx => 0x2000

def storage : Region → Storage
  | rom0 => .readOnly
  | romx => .readOnly
  | wram0 => .readWrite
  | wramx => .readWrite
  | hram => .readWrite
  | ram => .readWrite
  | ramx => .readWrite

def banking : Region → Option Banking
  | romx => some ⟨0x4000, 127, false⟩
  | wramx => some ⟨0x0000, 1, false⟩
  | ramx => some ⟨0x2000, 7, true⟩
  | rom0 => none
  | wram0 => none
  | hram => none
  | ram => none

def isBanked (region : Region) : Bool := region.banking.isSome

/-- Highest bank of the region, 0 where there is nothing to switch. -/
def maxBank (region : Region) : UInt64 :=
  match region.banking with
  | some banking => banking.maxBank
  | none => 0

/-- The bank of a section that names none. -/
def defaultBank (region : Region) : UInt64 := if region.isBanked then 1 else 0

def number (region : Region) : Nat := all.idxOf region

def ofNumber? (number : Nat) : Option Region := all[number]?

def unknownNumberMessage (number : Nat) : String :=
  "No discriminant in enum `Region` matches the value `" ++ Numeral.decimal number ++ "`"

/-- Region names are matched exactly, upper and lower case apart. -/
def ofName? (name : String) : Option Region := all.find? (·.name == name)

/-- The names of all regions in alphabetical order. -/
def names : List String := (all.map name).mergeSort

/-- Bank 0 and every unbanked region start at the base of the region. -/
def windowLow (region : Region) (bank : UInt64) : UInt64 :=
  match region.banking with
  | none => region.base
  | some banking =>
      if bank = 0 then region.base else region.base + (bank - 1) * banking.bankSize

/-- The part of the flattened image that one bank of the region owns. -/
def window (region : Region) (bank : UInt64) : Window :=
  ⟨region.windowLow bank, region.windowLow bank + region.size⟩

theorem perm_names : names.Perm (all.map name) := List.mergeSort_perm _ _

theorem pairwise_names : names.Pairwise (· ≤ ·) := by
  have sorted := @List.pairwise_mergeSort String (fun left right => decide (left ≤ right))
    (fun first second third => by simpa using String.le_trans)
    (fun first second => by simpa using String.le_total first second) (all.map name)
  simpa only [names, decide_eq_true_eq] using sorted

theorem ofName?_name (region : Region) : ofName? region.name = some region := by
  cases region <;> rfl

theorem name_of_ofName? {name : String} {region : Region}
    (found : ofName? name = some region) : region.name = name := by
  simpa using List.find?_some found

end Region

end RomLayout
