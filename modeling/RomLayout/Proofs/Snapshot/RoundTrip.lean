import RomLayout.Snapshot.Reader
import RomLayout.Snapshot.Writer
import RomLayout.Proofs.Json.Plain
import RomLayout.Proofs.Json.RoundTrip

set_option autoImplicit false

/-!
Reading a written snapshot gives it back, so the text of a snapshot says everything
about it.
-/

namespace RomLayout

namespace Snapshot

section Plain

variable (depth : Nat)

theorem plain_text (value : String) : Json.Plain depth (text value) :=
  ⟨Nat.zero_le _, rfl, trivial⟩

theorem plain_boolean (value : Bool) : Json.Plain depth (.boolean value) :=
  ⟨Nat.zero_le _, rfl, trivial⟩

theorem plain_offset (position : Option UInt64) : Json.Plain depth (offset position) := by
  cases position with
  | none => exact ⟨Nat.zero_le _, rfl, trivial⟩
  | some value => exact Json.Plain.natural value.toNat_lt

theorem plain_placement (position : Option UInt64) (size : UInt64) :
    ∀ member ∈ placement position size, member.1.isSome ∧ Json.Plain depth member.2 := by
  rw [placement, List.forall_mem_cons, List.forall_mem_singleton]
  exact ⟨⟨rfl, plain_offset depth position⟩, rfl, Json.Plain.natural size.toNat_lt⟩

theorem plain_members (content : ContentSnapshot) :
    ∀ member ∈ content.members, member.1.isSome ∧ Json.Plain (depth + 1) member.2 := by
  cases content with
  | instruction mnemonic =>
      exact List.forall_mem_singleton.mpr ⟨rfl, plain_text _ mnemonic⟩
  | dataBlock values =>
      refine List.forall_mem_singleton.mpr ⟨rfl, .array ?_⟩
      rw [List.forall_mem_map]
      intro value _
      exact Json.Plain.natural (Nat.lt_trans value.toNat_lt (by decide))
  | slot => exact List.forall_mem_nil _
  | binary path => exact List.forall_mem_singleton.mpr ⟨rfl, plain_text _ path.text⟩

theorem plain_entry (entry : EntrySnapshot) : Json.Plain (depth + 2) entry.toJson := by
  cases entry with
  | label name position size =>
      apply Json.Plain.object
      rw [List.forall_mem_cons, List.forall_mem_cons]
      exact ⟨⟨rfl, plain_text _ "Label"⟩, ⟨rfl, plain_text _ name⟩,
        plain_placement _ position size⟩
  | placed content position size front =>
      apply Json.Plain.object
      rw [List.forall_mem_append, List.cons_append, List.forall_mem_cons, List.forall_mem_append]
      refine ⟨⟨⟨rfl, plain_text _ content.kind⟩, plain_members depth content,
        plain_placement _ position size⟩, ?_⟩
      cases front with
      | none => exact List.forall_mem_nil _
      | some name => exact List.forall_mem_singleton.mpr ⟨rfl, plain_text _ name⟩

theorem plain_entries (entries : List EntrySnapshot) :
    Json.Plain (depth + 3) (.array (entries.map EntrySnapshot.toJson)) := by
  apply Json.Plain.array
  rw [List.forall_mem_map]
  intro entry _
  exact plain_entry depth entry

theorem plain_section (snapshot : SectionSnapshot) : Json.Plain (depth + 4) snapshot.toJson := by
  apply Json.Plain.object
  simp only [List.forall_mem_cons]
  exact ⟨⟨rfl, plain_text _ "Section"⟩, ⟨rfl, plain_text _ snapshot.file⟩,
    ⟨rfl, plain_text _ snapshot.name⟩, ⟨rfl, plain_text _ snapshot.region.name⟩,
    ⟨rfl, .natural snapshot.bank.toNat_lt⟩, ⟨rfl, .natural snapshot.low.toNat_lt⟩,
    ⟨rfl, .natural snapshot.high.toNat_lt⟩,
    ⟨rfl, .natural snapshot.origin.toNat_lt⟩,
    ⟨rfl, .natural snapshot.bankOffset.toNat_lt⟩,
    ⟨rfl, plain_boolean _ snapshot.writeable⟩, ⟨rfl, plain_entries depth snapshot.entries⟩,
    List.forall_mem_nil _⟩

end Plain

theorem natural?_natural {limit value : Nat} (fits : value < limit) :
    Json.natural? limit (natural value) = some value := by
  rw [natural, Json.natural?, Numeral.toNat?_ofNat (by decide) (by decide), Option.filter_some,
    if_pos (decide_eq_true fits)]

@[simp] theorem address?_natural (value : UInt64) :
    Json.address? (natural value.toNat) = some value := by
  rw [Json.address?, natural?_natural value.toNat_lt, Option.map_some, Nat.toUInt64,
    UInt64.ofNat_toNat]

@[simp] theorem byte?_natural (value : UInt8) : Json.byte? (natural value.toNat) = some value := by
  rw [Json.byte?, natural?_natural value.toNat_lt, Option.map_some, Nat.toUInt8,
    UInt8.ofNat_toNat]

@[simp] theorem text?_text (value : String) : Json.text? (text value) = some value := rfl

@[simp] theorem region?_text (region : Region) : region? (text region.name) = some region :=
  Region.ofName?_name region

@[simp] theorem optional?_offset (position : Option UInt64) :
    Json.optional? Json.address? (offset position) = some position := by
  cases position with
  | none => rfl
  | some value =>
      change (Json.address? (natural value.toNat)).map some = _
      rw [address?_natural, Option.map_some]

/-- What an entry holds is read from the members that only its kind has. -/
theorem content?_of_lookup {content : ContentSnapshot} {fields : Fields}
    (present : ∀ name value, member name value ∈ content.members →
      fields.lookup name = some value) :
    content? content.kind fields = some content := by
  cases content with
  | instruction mnemonic =>
      have found := present "mnemonic" (text mnemonic) (List.mem_singleton_self _)
      simp [ContentSnapshot.kind, content?, required?, found]
  | dataBlock values =>
      have found := present "values" _ (List.mem_singleton_self _)
      have read := mapM_map_eq_some byte?_natural values
      simp only [ContentSnapshot.kind, content?, required?, found, Json.elements?,
        Option.bind_some, read, Option.map_some]
  | slot => rfl
  | binary path =>
      have found := present "src" (text path.text) (List.mem_singleton_self _)
      simp [ContentSnapshot.kind, content?, required?, found, Path.text, Path.ofString]

/-- A written entry has the fields that its kind asks for. -/
theorem fields?_placed (content : ContentSnapshot) (position : Option UInt64) (size : UInt64)
    (front : Option String) :
    ∃ names fields, entryFields? content.kind = some names ∧
      (EntrySnapshot.placed content position size front).toJson.fields? names = some fields ∧
      optional? fields "offset" Json.address? = some position ∧
      required? fields "size" Json.address? = some size ∧
      optional? fields "label" Json.text? = some front ∧
      ∀ name value, member name value ∈ content.members → fields.lookup name = some value := by
  -- An absent label is no member at all, so every kind is written in two ways.
  cases content <;> cases front <;>
    (refine ⟨_, _, rfl, rfl, optional?_offset position, address?_natural size, rfl, ?_⟩
     rintro _ _ (_ | ⟨_, ⟨⟩⟩) <;> rfl)

theorem entry?_toJson (entry : EntrySnapshot) : entry? entry.toJson = some entry := by
  cases entry with
  | label name position size =>
      have kind : (EntrySnapshot.label name position size).toJson.kind? = some "Label" := rfl
      have read : (EntrySnapshot.label name position size).toJson.fields?
          ["kind", "name", "offset", "size"] = some
            [("kind", text "Label"), ("name", text name), ("offset", offset position),
              ("size", natural size.toNat)] := rfl
      unfold entry?
      rw [kind]
      simp [entryFields?, read, optional?, required?, List.lookup_cons]
  | placed content position size front =>
      have kind : (EntrySnapshot.placed content position size front).toJson.kind? =
          some content.kind := by
        cases content <;> cases front <;> rfl
      have notLabel : content.kind ≠ "Label" := by
        cases content <;> simp [ContentSnapshot.kind]
      obtain ⟨names, fields, known, read, atOffset, atSize, atLabel, own⟩ :=
        fields?_placed content position size front
      unfold entry?
      rw [kind]
      simp [known, read, atOffset, atSize, atLabel, notLabel, content?_of_lookup own]

theorem entries?_toJson (entries : List EntrySnapshot) :
    entries? (.array (entries.map EntrySnapshot.toJson)) = some entries := by
  have plain := plain_entries 0 entries
  have shallow : (Json.array (entries.map EntrySnapshot.toJson)).nesting < maxNesting :=
    Nat.lt_of_le_of_lt plain.nesting (by decide)
  rw [entries?, if_pos ⟨shallow, plain.readable⟩, Json.elements?, Option.bind_some,
    mapM_map_eq_some entry?_toJson]

end Snapshot

namespace SectionSnapshot

open Snapshot

theorem ofJson?_toJson (snapshot : SectionSnapshot) :
    ofJson? snapshot.toJson = some snapshot := by
  have read : snapshot.toJson.fields? sectionFields = some
      [ ("file", text snapshot.file),
        ("name", text snapshot.name),
        ("region", text snapshot.region.name),
        ("bank", natural snapshot.bank.toNat),
        ("start", natural snapshot.low.toNat),
        ("end", natural snapshot.high.toNat),
        ("offset", natural snapshot.origin.toNat),
        ("bankOffset", natural snapshot.bankOffset.toNat),
        ("writeable", .boolean snapshot.writeable),
        ("entries", .array (snapshot.entries.map EntrySnapshot.toJson)) ] := by
    rfl
  rw [ofJson?, read]
  simp [required?, List.lookup_cons, entries?_toJson, Json.boolean?]

theorem ofText?_render (snapshot : SectionSnapshot) :
    ofText? snapshot.render = some snapshot := by
  rw [ofText?, render, Json.ofText?_pretty (plain_section 0 snapshot).grammatical,
    Option.bind_some, ofJson?_toJson]

/-- Reading a written snapshot succeeds and gives it back. So two snapshots with one text
are the same. -/
theorem render_exact :
    (∀ snapshot : SectionSnapshot, ofText? snapshot.render = some snapshot) ∧
      Function.Injective render := by
  refine ⟨ofText?_render, ?_⟩
  intro first second sameText
  apply Option.some.inj
  rw [← ofText?_render first, sameText, ofText?_render]

end SectionSnapshot

/-- The text for a whole layout says everything about all of its sections. -/
theorem renderSnapshots_injective : Function.Injective renderSnapshots := by
  have read : ∀ snapshots, ((Json.ofText? (renderSnapshots snapshots)).bind Json.elements?).bind
      (·.mapM SectionSnapshot.ofJson?) = some snapshots := by
    intro snapshots
    have plain : Json.Plain 5 (.array (snapshots.map SectionSnapshot.toJson)) := by
      apply Json.Plain.array
      rw [List.forall_mem_map]
      intro snapshot _
      exact Snapshot.plain_section 0 snapshot
    rw [renderSnapshots, Json.ofText?_pretty plain.grammatical, Option.bind_some, Json.elements?,
      Option.bind_some, mapM_map_eq_some SectionSnapshot.ofJson?_toJson]
  intro first second sameText
  apply Option.some.inj
  rw [← read first, sameText, read]

end RomLayout
