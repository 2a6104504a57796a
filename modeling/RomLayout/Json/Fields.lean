import RomLayout.Json.Number
import RomLayout.Json.Text

set_option autoImplicit false

/-!
What JSON values hold. Members without a meaning are skipped; one with a meaning
stands at most once. A value is readable if its strings are proper and none of its
numbers is infinite.
-/

namespace RomLayout.Json

mutual

def nesting : Json → Nat
  | null => 0
  | boolean _ => 0
  | number _ => 0
  | string _ => 0
  | array elements => nestingOfElements elements + 1
  | object members => nestingOfMembers members + 1

def nestingOfElements : List Json → Nat
  | [] => 0
  | element :: others => max element.nesting (nestingOfElements others)

def nestingOfMembers : List (Option String × Json) → Nat
  | [] => 0
  | (_, value) :: others => max value.nesting (nestingOfMembers others)

end

mutual

/-- Whether every string is proper and every number finite. -/
def isReadable : Json → Bool
  | null => true
  | boolean _ => true
  | number literal => (Number.ofLiteral literal).scientific.isFinite
  | string text => text.isSome
  | array elements => areReadableElements elements
  | object members => areReadableMembers members

def areReadableElements : List Json → Bool
  | [] => true
  | element :: others => element.isReadable && areReadableElements others

def areReadableMembers : List (Option String × Json) → Bool
  | [] => true
  | (name, value) :: others =>
      name.isSome && value.isReadable && areReadableMembers others

end

def text? : Json → Option String
  | string text => text
  | _ => none

def boolean? : Json → Option Bool
  | boolean value => some value
  | _ => none

/-- A number without sign, fraction and exponent, below a limit. -/
def natural? (limit : Nat) : Json → Option Nat
  | number literal => (Numeral.toNat? 10 literal).filter (· < limit)
  | _ => none

def address? (value : Json) : Option UInt64 := (natural? UInt64.size value).map Nat.toUInt64

def byte? (value : Json) : Option UInt8 := (natural? UInt8.size value).map Nat.toUInt8

def elements? : Json → Option (List Json)
  | array elements => some elements
  | _ => none

/-- Null is absence. -/
def optional? {Value : Type} (read : Json → Option Value) : Json → Option (Option Value)
  | null => some none
  | value => (read value).map some

/-- The values of named fields: by name among the members of an object, by place
among the elements of an array. -/
def fields? (names : List String) : Json → Option (List (String × Json))
  | object members =>
      let named := members.filterMap fun (name, value) => name.map fun name => (name, value)
      let known := named.filter fun field => names.contains field.1
      if named.length = members.length ∧
          names.all fun name => (known.filter (·.1 == name)).length ≤ 1 then
        some known
      else none
  | array elements => if elements.length ≤ names.length then some (names.zip elements) else none
  | _ => none

/-- What stands in the field that says what an object is. -/
def kind? : Json → Option String
  | object members =>
      match members.filter (·.1 == some "kind") with
      | [(_, value)] => value.text?
      | _ => none
  | array elements => elements.head?.bind text?
  | _ => none

end RomLayout.Json
