import RomLayout.Description.Basic
import RomLayout.Yaml.Fields

set_option autoImplicit false

/-!
Reading layout descriptions from YAML: the mapping of each part has the fields of
that part, and an entry is a mapping with one member whose key says what it is.

The texts are assumed to have no anchors, aliases, tags, block scalars and directives.
One that has any of these is refused, though YAML gives it a meaning.
-/

namespace RomLayout

open Yaml (Node)
open Yaml.Node

namespace EntryDescription

def instruction? (node : Node) : Option EntryDescription := do
  let fields ← node.fields? ["mnemonic", "size"]
  let mnemonic ← required? fields "mnemonic" text?
  let size ← required? fields "size" address?
  some (.instruction mnemonic size)

def data? (node : Node) : Option EntryDescription := do
  let fields ← node.fields? ["values", "size"]
  let values ← defaulted? fields "values" [] fun values => values.elements?.bind (·.mapM byte?)
  let size ← defaulted? fields "size" none (optional? address?)
  some (.data values size)

def ofNode? : Node → Option EntryDescription
  | .mapping [(.scalar kind _, value)] =>
      match kind with
      | "label" => value.text?.map .label
      | "instruction" => instruction? value
      | "data" => data? value
      | "variable" => value.address?.map .slot
      | "binary" => value.text?.map fun text => .binary (Path.ofString text)
      | _ => none
  | _ => none

end EntryDescription

def SectionDescription.ofNode? (node : Node) : Option SectionDescription := do
  let fields ← node.fields? ["region", "bank", "offset", "entries"]
  let region ← required? fields "region" text?
  let bank ← defaulted? fields "bank" none (optional? signed64?)
  let offset ← defaulted? fields "offset" none (optional? address?)
  let entries ← defaulted? fields "entries" [] fun entries =>
    entries.elements?.bind (·.mapM EntryDescription.ofNode?)
  some { region, bank, offset, entries }

/-- Puts a section under a name. A name that is already there keeps its place and
gets the new section. -/
def putSection (sections : List (String × SectionDescription)) (name : String)
    (described : SectionDescription) : List (String × SectionDescription) :=
  if sections.any (·.1 == name) then
    sections.map fun other =>
      if other.1 = name then (name, described) else other
  else sections ++ [(name, described)]

namespace FileDescription

def sections? (node : Node) : Option (List (String × SectionDescription)) := do
  let members ← node.namedMembers?
  let sections ← members.mapM fun (name, value) =>
    (SectionDescription.ofNode? value).map fun described => (name, described)
  some (sections.foldl (fun sections (name, described) => putSection sections name described) [])

def ofNode? (node : Node) : Option FileDescription := do
  let fields ← node.fields? ["name", "sections"]
  let name ← required? fields "name" text?
  let sections ← defaulted? fields "sections" [] sections?
  some { name, sections }

end FileDescription

namespace Description

def ofNode? (node : Node) : Option Description := do
  let fields ← node.fields? ["files"]
  let files ← required? fields "files" fun files =>
    files.elements?.bind (·.mapM FileDescription.ofNode?)
  some { files }

def parse (text : String) : Except Error Description :=
  match (Node.ofText? text).bind ofNode? with
  | some description => .ok description
  | none => .error .invalidDescription

/-- The description in a file, whose text is in the part of YAML that is read here. -/
def load (files : Lookup) (path : Path) : Except Error Description :=
  match files path with
  | .error cause => .error (.inputOutput cause)
  | .ok (.directory _) => .error .invalidDescription
  | .ok (.file bytes) =>
      match String.fromUTF8? ⟨bytes.toArray⟩ with
      | some text => parse text
      | none => .error .invalidDescription

end Description

end RomLayout
