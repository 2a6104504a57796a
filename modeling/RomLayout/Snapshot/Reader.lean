import RomLayout.Snapshot.Basic
import RomLayout.Json.Fields

set_option autoImplicit false

/-!
Reading snapshots back from JSON.

A section or entry is an object whose members stand in any order, or an array of
its fields in the order in which they are written. Whatever an entry holds, also
what is skipped, has to be readable and not nested too deeply.
-/

namespace RomLayout

namespace Snapshot

def maxNesting : Nat := 127

/-- A name, or an object with this name alone and null. -/
def region? : Json → Option Region
  | .string (some name) => Region.ofName? name
  | .object [(some name, .null)] => Region.ofName? name
  | _ => none

abbrev Fields := List (String × Json)

def required? {Value : Type} (fields : Fields) (name : String) (read : Json → Option Value) :
    Option Value :=
  (fields.lookup name).bind read

def optional? {Value : Type} (fields : Fields) (name : String) (read : Json → Option Value) :
    Option (Option Value) :=
  match fields.lookup name with
  | some value => Json.optional? read value
  | none => some none

def contentFields : List String := ["offset", "size", "label"]

/-- The fields of a kind of entry, in their order. -/
def entryFields? : String → Option (List String)
  | "Label" => some ["kind", "name", "offset", "size"]
  | "Instruction" => some ("kind" :: "mnemonic" :: contentFields)
  | "DataBlock" => some ("kind" :: "values" :: contentFields)
  | "Variable" => some ("kind" :: contentFields)
  | "Binary" => some ("kind" :: "src" :: contentFields)
  | _ => none

def content? (kind : String) (fields : Fields) : Option ContentSnapshot :=
  match kind with
  | "Instruction" => (required? fields "mnemonic" Json.text?).map .instruction
  | "DataBlock" =>
      ((required? fields "values" Json.elements?).bind (·.mapM Json.byte?)).map .dataBlock
  | "Variable" => some .slot
  | "Binary" => (required? fields "src" Json.text?).map fun text => .binary (Path.ofString text)
  | _ => none

def entry? (json : Json) : Option EntrySnapshot := do
  let kind ← json.kind?
  let fields ← json.fields? (← entryFields? kind)
  let offset ← optional? fields "offset" Json.address?
  let size ← required? fields "size" Json.address?
  if kind = "Label" then
    let name ← required? fields "name" Json.text?
    some (.label name offset size)
  else
    let content ← content? kind fields
    let label ← optional? fields "label" Json.text?
    some (.placed content offset size label)

/-- The list of entries, which stands one level inside its section. -/
def entries? (json : Json) : Option (List EntrySnapshot) :=
  if json.nesting < maxNesting ∧ json.isReadable then
    json.elements?.bind (·.mapM entry?)
  else none

def sectionFields : List String :=
  ["file", "name", "region", "bank", "start", "end", "offset", "bankOffset", "writeable",
    "entries"]

end Snapshot

namespace SectionSnapshot

open Snapshot

def ofJson? (json : Json) : Option SectionSnapshot := do
  let fields ← json.fields? sectionFields
  let file ← required? fields "file" Json.text?
  let name ← required? fields "name" Json.text?
  let region ← required? fields "region" region?
  let bank ← required? fields "bank" Json.address?
  let low ← required? fields "start" Json.address?
  let high ← required? fields "end" Json.address?
  let origin ← required? fields "offset" Json.address?
  let bankOffset ← required? fields "bankOffset" Json.address?
  let writeable ← required? fields "writeable" Json.boolean?
  let entries ← required? fields "entries" entries?
  some { file, name, region, bank, low, high, origin, bankOffset, writeable, entries }

def ofText? (text : String) : Option SectionSnapshot := (Json.ofText? text).bind ofJson?

end SectionSnapshot

end RomLayout
