import RomLayout.Snapshot.Basic
import RomLayout.Json.Text

set_option autoImplicit false

/-!
Snapshots as JSON. Sections and entries say what they are in a member `kind`; an
unknown offset is written as null, an absent label is left out.
-/

namespace RomLayout

namespace Snapshot

def text (text : String) : Json := .string (some text)

def natural (value : Nat) : Json := .number (Numeral.ofNat 10 value)

def member (name : String) (value : Json) : Option String × Json := (some name, value)

def offset (offset : Option UInt64) : Json :=
  match offset with
  | some value => natural value.toNat
  | none => .null

/-- The members behind the content of an entry. -/
def placement (position : Option UInt64) (size : UInt64) : List (Option String × Json) :=
  [member "offset" (offset position), member "size" (natural size.toNat)]

end Snapshot

namespace ContentSnapshot

open Snapshot

def kind : ContentSnapshot → String
  | instruction _ => "Instruction"
  | dataBlock _ => "DataBlock"
  | slot => "Variable"
  | binary _ => "Binary"

/-- The members that only this kind of entry has. -/
def members : ContentSnapshot → List (Option String × Json)
  | instruction mnemonic => [member "mnemonic" (text mnemonic)]
  | dataBlock values => [member "values" (.array (values.map fun value => natural value.toNat))]
  | slot => []
  | binary path => [member "src" (text path.text)]

end ContentSnapshot

open Snapshot in
def EntrySnapshot.toJson : EntrySnapshot → Json
  | .label name position size =>
      .object (member "kind" (text "Label") :: member "name" (text name)
        :: placement position size)
  | .placed content position size front =>
      .object (member "kind" (text content.kind) :: content.members ++ placement position size
        ++ (front.map fun name => member "label" (text name)).toList)

namespace SectionSnapshot

open Snapshot

def toJson (snapshot : SectionSnapshot) : Json :=
  .object
    [ member "kind" (text "Section"),
      member "file" (text snapshot.file),
      member "name" (text snapshot.name),
      member "region" (text snapshot.region.name),
      member "bank" (natural snapshot.bank.toNat),
      member "start" (natural snapshot.low.toNat),
      member "end" (natural snapshot.high.toNat),
      member "offset" (natural snapshot.origin.toNat),
      member "bankOffset" (natural snapshot.bankOffset.toNat),
      member "writeable" (.boolean snapshot.writeable),
      member "entries" (.array (snapshot.entries.map EntrySnapshot.toJson)) ]

def render (snapshot : SectionSnapshot) : String := snapshot.toJson.pretty

end SectionSnapshot

def renderSnapshots (snapshots : List SectionSnapshot) : String :=
  Json.pretty (.array (snapshots.map SectionSnapshot.toJson))

end RomLayout
