import RomLayout.Yaml.Node
import RomLayout.Yaml.Number

set_option autoImplicit false

/-!
What YAML nodes hold. Fields of a mapping are found by name: fields without a
meaning are skipped, a field with one stands at most once. Nothing written counts as
an empty list or mapping. Numbers stand without quotes; as a text, any scalar is
accepted.
-/

namespace RomLayout.Yaml.Node

def text? : Node → Option String
  | scalar text _ => some text
  | _ => none

def plain? : Node → Option (List Char)
  | scalar text true => some text.toList
  | _ => none

def natural? (limit : Nat) (node : Node) : Option Nat :=
  (node.plain?.bind unsigned?).filter (· < limit)

def address? (node : Node) : Option UInt64 := (node.natural? UInt64.size).map Nat.toUInt64

def byte? (node : Node) : Option UInt8 := (node.natural? UInt8.size).map Nat.toUInt8

def signed64? (node : Node) : Option Int64 :=
  ((node.plain?.bind signed?).filter fun value =>
    Int64.minValue.toInt ≤ value ∧ value ≤ Int64.maxValue.toInt).map Int64.ofInt

def elements? : Node → Option (List Node)
  | sequence elements => some elements
  | scalar "" true => some []
  | _ => none

def members? : Node → Option (List (Node × Node))
  | mapping members => some members
  | scalar "" true => some []
  | _ => none

/-- Scalars that stand for absence. -/
def isAbsent : Node → Bool
  | scalar text true => ["", "~", "null", "Null", "NULL"].contains text
  | _ => false

def optional? {Value : Type} (read : Node → Option Value) (node : Node) :
    Option (Option Value) :=
  if node.isAbsent then some none else (read node).map some

def namedMembers? (node : Node) : Option (List (String × Node)) :=
  node.members?.bind (·.mapM fun (key, value) => key.text?.map fun name => (name, value))

def fields? (names : List String) (node : Node) : Option (List (String × Node)) :=
  node.namedMembers?.bind fun members =>
    let known := members.filter fun field => names.contains field.1
    if names.all fun name => (known.filter (·.1 == name)).length ≤ 1 then some known else none

/-- The value of a field that has to stand. -/
def required? {Value : Type} (fields : List (String × Node)) (name : String)
    (read : Node → Option Value) : Option Value :=
  (fields.lookup name).bind read

/-- The value of a field, or another value where it does not stand. -/
def defaulted? {Value : Type} (fields : List (String × Node)) (name : String)
    (otherwise : Value) (read : Node → Option Value) : Option Value :=
  match fields.lookup name with
  | some node => read node
  | none => some otherwise

end RomLayout.Yaml.Node
