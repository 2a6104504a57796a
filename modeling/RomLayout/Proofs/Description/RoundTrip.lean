import RomLayout.Proofs.Description.Names
import RomLayout.Proofs.Yaml.Fields

set_option autoImplicit false

/-!
A written layout description is read back unchanged.

A description is first made a node, and the text of the description is the text of that
node. So what is left is to read the node, field by field. Only sections under repeated
names do not come back.
-/

namespace RomLayout

open Yaml (Node)
open Yaml.Node

namespace EntryDescription

def toNode : EntryDescription → Node
  | label name => .mapping [field "label" (quote name)]
  | instruction mnemonic size =>
      .mapping [field "instruction"
        (.mapping [field "mnemonic" (quote mnemonic), field "size" (natural size.toNat)])]
  | data values size =>
      .mapping [field "data"
        (.mapping (field "values" (.sequence (values.map fun value => natural value.toNat))
          :: optionalField "size" (fun size : UInt64 => natural size.toNat) size))]
  | slot size => .mapping [field "variable" (natural size.toNat)]
  | binary text => .mapping [field "binary" (quote text.text)]

theorem render_toNode (entry : EntryDescription) : entry.toNode.render = entry.render := by
  cases entry <;> simp [toNode, render, Function.comp_def]

theorem isFlow_toNode (entry : EntryDescription) : entry.toNode.IsFlow := by
  cases entry with
  | label name =>
      apply isFlow_mapping
      rw [List.forall_mem_singleton]
      exact isFlowMember_field (by decide) (isFlow_quote name)
  | instruction mnemonic size =>
      apply isFlow_mapping
      rw [List.forall_mem_singleton]
      apply isFlowMember_field (by decide)
      apply isFlow_mapping
      rw [List.forall_mem_cons, List.forall_mem_singleton]
      exact ⟨isFlowMember_field (by decide) (isFlow_quote mnemonic),
        isFlowMember_field (by decide) (isFlow_natural _)⟩
  | data values size =>
      have flows : ∀ element ∈ values.map fun value => natural value.toNat, element.IsFlow := by
        rw [List.forall_mem_map]
        exact fun value _ => isFlow_natural value.toNat
      apply isFlow_mapping
      rw [List.forall_mem_singleton]
      apply isFlowMember_field (by decide)
      apply isFlow_mapping
      rw [List.forall_mem_cons]
      exact ⟨isFlowMember_field (by decide) (.sequence flows),
        isFlowMember_optionalField (by decide) (fun size => isFlow_natural _) size⟩
  | slot size =>
      apply isFlow_mapping
      rw [List.forall_mem_singleton]
      exact isFlowMember_field (by decide) (isFlow_natural _)
  | binary text =>
      apply isFlow_mapping
      rw [List.forall_mem_singleton]
      exact isFlowMember_field (by decide) (isFlow_quote _)

theorem data?_toNode (values : List UInt8) (size : Option UInt64) :
    data? (.mapping (field "values" (.sequence (values.map fun value => natural value.toNat))
      :: optionalField "size" (fun size : UInt64 => natural size.toNat) size)) =
      some (.data values size) := by
  have read := mapM_map_eq_some byte?_natural values
  cases size with
  | none =>
      change (Option.bind (List.mapM _ _) _) = _
      rw [read]
      rfl
  | some size =>
      change (Option.bind (List.mapM _ _) _) = _
      rw [read]
      change (Option.bind (optional? address? _) _) = _
      rw [optional?_of_read (isAbsent_natural _) (address?_natural size)]
      rfl

theorem ofNode?_toNode (entry : EntryDescription) : ofNode? entry.toNode = some entry := by
  cases entry with
  | label name => rfl
  | instruction mnemonic size =>
      change (Option.bind (address? (natural size.toNat)) _) = _
      rw [address?_natural]
      rfl
  | data values size => exact data?_toNode values size
  | slot size =>
      change (natural size.toNat).address?.map _ = _
      rw [address?_natural, Option.map_some]
  | binary text =>
      change some (binary (Path.ofString text.text)) = _
      rw [Path.text, Path.ofString, String.toList_ofList]

end EntryDescription

namespace SectionDescription

def toNode (described : SectionDescription) : Node :=
  .mapping
    (field "region" (quote described.region)
      :: optionalField "bank" (fun bank : Int64 => integer bank.toInt) described.bank
      ++ optionalField "offset" (fun offset : UInt64 => natural offset.toNat) described.offset
      ++ [field "entries" (.sequence (described.entries.map EntryDescription.toNode))])

theorem render_toNode (described : SectionDescription) :
    described.toNode.render = described.render := by
  simp [toNode, render, Function.comp_def, EntryDescription.render_toNode]

theorem isFlow_toNode (described : SectionDescription) : described.toNode.IsFlow := by
  have flows : ∀ element ∈ described.entries.map EntryDescription.toNode, element.IsFlow := by
    rw [List.forall_mem_map]
    exact fun entry _ => entry.isFlow_toNode
  apply isFlow_mapping
  rw [List.forall_mem_append, List.cons_append, List.forall_mem_cons, List.forall_mem_append,
    List.forall_mem_singleton]
  exact ⟨⟨isFlowMember_field (by decide) (isFlow_quote _),
    isFlowMember_optionalField (by decide) (fun bank => isFlow_integer _) described.bank,
    isFlowMember_optionalField (by decide) (fun offset => isFlow_natural _) described.offset⟩,
    isFlowMember_field (by decide) (.sequence flows)⟩

/-- A written section has the fields that are read from it. -/
theorem fields?_toNode (described : SectionDescription) :
    ∃ fields, described.toNode.fields? ["region", "bank", "offset", "entries"] = some fields ∧
      required? fields "region" text? = some described.region ∧
      defaulted? fields "bank" none (optional? signed64?) = some described.bank ∧
      defaulted? fields "offset" none (optional? address?) = some described.offset ∧
      defaulted? fields "entries" [] (fun entries =>
        entries.elements?.bind (·.mapM EntryDescription.ofNode?)) = some described.entries := by
  obtain ⟨region, bank, offset, entries⟩ := described
  have readBank : ∀ bank : Int64, optional? signed64? (integer bank.toInt) = some (some bank) :=
    fun bank => optional?_of_read (isAbsent_integer _) (signed64?_integer bank)
  have readOffset : ∀ offset : UInt64,
      optional? address? (natural offset.toNat) = some (some offset) :=
    fun offset => optional?_of_read (isAbsent_natural _) (address?_natural offset)
  have readEntries := mapM_map_eq_some EntryDescription.ofNode?_toNode entries
  -- An absent field is no member at all, so a section is written in four ways.
  cases bank <;> cases offset
  · exact ⟨_, rfl, rfl, rfl, rfl, readEntries⟩
  · exact ⟨_, rfl, rfl, rfl, readOffset _, readEntries⟩
  · exact ⟨_, rfl, rfl, readBank _, rfl, readEntries⟩
  · exact ⟨_, rfl, rfl, readBank _, readOffset _, readEntries⟩

theorem ofNode?_toNode (described : SectionDescription) :
    ofNode? described.toNode = some described := by
  obtain ⟨fields, read, region, bank, offset, entries⟩ := described.fields?_toNode
  rw [ofNode?, read]
  simp only [Option.bind_eq_bind, Option.bind_some, region, bank, offset, entries]

end SectionDescription

namespace FileDescription

def toNode (file : FileDescription) : Node :=
  .mapping
    [ field "name" (quote file.name),
      field "sections" (.mapping (file.sections.map fun (name, described) =>
        (quote name, described.toNode))) ]

theorem render_toNode (file : FileDescription) : file.toNode.render = file.render := by
  simp [toNode, render, Function.comp_def, SectionDescription.render_toNode]

/-- No name of a section is too long for a key. -/
def HasShortNames (file : FileDescription) : Prop :=
  ∀ declared ∈ file.sections, (Yaml.quoted declared.1).length < 1000

instance (file : FileDescription) : Decidable file.HasShortNames :=
  inferInstanceAs (Decidable (∀ declared ∈ file.sections, _))

theorem isFlow_toNode {file : FileDescription} (short : file.HasShortNames) :
    file.toNode.IsFlow := by
  apply isFlow_mapping
  rw [List.forall_mem_cons, List.forall_mem_singleton]
  refine ⟨isFlowMember_field (by decide) (isFlow_quote _), isFlowMember_field (by decide) ?_⟩
  apply isFlow_mapping
  rw [List.forall_mem_map]
  intro declared isDeclared
  have atMost : (Yaml.quoted declared.1).length ≤ Yaml.Scanner.maxKeyDistance :=
    Nat.le_trans (Nat.le_of_lt (short declared isDeclared)) (by decide)
  exact ⟨isKey_quote atMost, declared.2.isFlow_toNode⟩

theorem pairs?_toNode (file : FileDescription) :
    pairs? (.mapping (file.sections.map fun (name, described) =>
      (quote name, described.toNode))) = some file.sections := by
  have named : Node.namedMembers? (.mapping (file.sections.map fun (name, described) =>
      (quote name, described.toNode))) =
        some (file.sections.map fun (name, described) => (name, described.toNode)) :=
    mapM_map_eq_map fun _ _ => rfl
  rw [pairs?, named, Option.bind_some]
  apply mapM_map_eq_some
  rintro ⟨name, described⟩
  dsimp only
  rw [described.ofNode?_toNode, Option.map_some]

theorem written?_toNode (file : FileDescription) : written? file.toNode = some file := by
  have read : file.toNode.fields? ["name", "sections"] =
      some [("name", quote file.name), ("sections", .mapping (file.sections.map
        fun (name, described) => (quote name, described.toNode)))] := rfl
  rw [written?, read]
  change (Option.bind (pairs? _) _) = _
  rw [file.pairs?_toNode]
  rfl

end FileDescription

namespace Description

def toNode (description : Description) : Node :=
  .mapping [field "files" (.sequence (description.files.map FileDescription.toNode))]

theorem render_toNode (description : Description) :
    String.ofList description.toNode.render = description.render := by
  simp [toNode, render, Function.comp_def, FileDescription.render_toNode]

theorem written?_toNode (description : Description) :
    written? description.toNode = some description := by
  have files := mapM_map_eq_some FileDescription.written?_toNode description.files
  change (Option.bind (List.mapM _ _) _) = _
  rw [files]
  rfl

variable {description : Description}

theorem isFlow_toNode (short : ∀ file ∈ description.files, file.HasShortNames) :
    description.toNode.IsFlow := by
  have flows : ∀ element ∈ description.files.map FileDescription.toNode, element.IsFlow := by
    rw [List.forall_mem_map]
    exact fun file isFile => FileDescription.isFlow_toNode (short file isFile)
  apply isFlow_mapping
  rw [List.forall_mem_singleton]
  exact isFlowMember_field (by decide) (.sequence flows)

/-- All that is written can be found in the text. -/
theorem writtenIn?_render (short : ∀ file ∈ description.files, file.HasShortNames) :
    writtenIn? description.render = some description := by
  have isFlow := isFlow_toNode short
  rw [writtenIn?, ← render_toNode, toNode, ofText?_render isFlow, Option.bind_some, ← toNode,
    written?_toNode]

theorem merged_of_nodup (distinct : ∀ file ∈ description.files, (file.sections.map (·.1)).Nodup) :
    description.merged = description := by
  have sameFiles : description.files.map FileDescription.merged = description.files :=
    calc
      description.files.map FileDescription.merged = description.files.map id :=
        List.map_congr_left fun file isFile =>
          congrArg (FileDescription.mk file.name) (putAll_of_nodup (distinct file isFile))
      _ = description.files := List.map_id _
  rw [merged, sameFiles]

/-- A name that looks like null, one with marks in it, and every kind of entry. -/
def oddNames : Description where
  files :=
    [ ⟨"main.gbc",
        [ ("null",
            { region := "ROMX", bank := some (-1), offset := some 0x4000,
              entries := [.label "\"\u00e9\n", .instruction "5" 1, .data [0, 255] (some 3),
                .data [] none, .slot 2, .binary (Path.ofString "a b.bin")] }),
          ("- x: [y]  #z", { region := "", bank := none, offset := none, entries := [] }) ]⟩,
      ⟨"", []⟩ ]

/-- A description that is written is accepted and comes back as it was. -/
theorem parse_render
    (distinct : ∀ file ∈ description.files, (file.sections.map (·.1)).Nodup)
    (short : ∀ file ∈ description.files, file.HasShortNames) :
    parse description.render = .ok description := by
  rw [parse_eq, writtenIn?_render short]
  exact congrArg Except.ok (merged_of_nodup distinct)

theorem parse_render_oddNames : parse oddNames.render = .ok oddNames := by
  apply parse_render
  · rw [oddNames, List.forall_mem_cons, List.forall_mem_singleton]
    exact ⟨by decide, by decide⟩
  · rw [oddNames, List.forall_mem_cons, List.forall_mem_singleton]
    exact ⟨by decide, by decide⟩

end Description

end RomLayout
