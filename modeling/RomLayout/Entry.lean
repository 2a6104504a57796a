import RomLayout.Address
import RomLayout.Error

set_option autoImplicit false

/-!
Entries: what a section is made of. An entry has a payload with a size of its
own, the source index that it comes from and, once its section has been
resolved, an address and the label in front of it.

Ids, source indices and positions are natural numbers, sizes and addresses are words of
64 bits. Ids and indices are only compared and counted on by one for each item, so in 64
bits a run would have to add 2^64 items before one of them is another number.
-/

namespace RomLayout

/-- Bytes, filled up with zeros to `size`. -/
structure DataBlock where
  values : List UInt8
  size : UInt64
  deriving DecidableEq

namespace DataBlock

def ofValues (values : List UInt8) : DataBlock := ⟨values, values.length.toUInt64⟩

def reserve (size : UInt64) : DataBlock := ⟨[], size⟩

def isInitialized (block : DataBlock) : Bool := !block.values.isEmpty

end DataBlock

/-- A file whose bytes go into the image. Only its size is known before the image
is made. -/
structure Binary where
  location : Location
  path : Path
  size : UInt64
  deriving DecidableEq

namespace Binary

/-- The bytes of the file as it is now. -/
def materialize (binary : Binary) (files : Lookup) : Except Error (List UInt8) :=
  match files binary.path >>= FileNode.bytes? with
  | .ok bytes => .ok bytes
  | .error cause => .error (.includeFailed binary.location binary.path cause)

end Binary

inductive Payload where
  | label (name : String)
  /-- An instruction whose encoded length is known. -/
  | instruction (mnemonic : String) (size : UInt64)
  | data (block : DataBlock)
  /-- Room for a variable. -/
  | slot (size : UInt64)
  | binary (binary : Binary)
  deriving DecidableEq

namespace Payload

def size : Payload → UInt64
  | label _ => 0
  | instruction _ size => size
  | data block => block.size
  | slot size => size
  | binary included => included.size

def isLabel : Payload → Bool
  | label _ => true
  | instruction .. | data _ | slot _ | binary _ => false

def labelName? : Payload → Option String
  | label name => some name
  | instruction .. | data _ | slot _ | binary _ => none

/-- Why a payload has no place in a storage class. -/
def violation? : Payload → Storage → Option Violation
  | label _, _ => none
  | instruction .., .readWrite => some .instructionInRam
  | instruction .., .readOnly => none
  | data block, .readWrite => if block.isInitialized then some .initializedDataInRam else none
  | data _, .readOnly => none
  | slot _, .readWrite => none
  | slot _, .readOnly => some .variableInRom
  | binary _, .readWrite => some .binaryInRam
  | binary _, .readOnly => none

end Payload

/-- Names an entry inside its section. A number is never used twice. -/
abbrev EntryId := Nat

structure Entry where
  id : EntryId
  payload : Payload
  index : Nat
  /-- Assigned by resolving the section. -/
  address : Option Address
  /-- The label directly in front of the entry. -/
  label : Option EntryId
  deriving DecidableEq

namespace Entry

def size (entry : Entry) : UInt64 := entry.payload.size

def offset? (entry : Entry) (frame : Frame) (bankOffset : UInt64) : Option UInt64 :=
  entry.address.bind (·.to? frame bankOffset)

end Entry

end RomLayout
