import Mathlib.Algebra.GroupWithZero.Nat
import RomLayout.Proofs.Binding
import RomLayout.Description.Basic

set_option autoImplicit false

/-!
A description as the list of its items, headers and entries, in document order.

Building goes through the items once. Either none of them is refused, and every
section of the layout is the bound declaration with the declared entries, or the error
is the one that the first refused item raises. The source index of an item is said by a
sum over the sections in front of it, not by the counter that building keeps.
-/

namespace RomLayout

/-- The payload that an entry asks for. Only an include depends on the files. -/
inductive EntryDescription.Becomes (files : Lookup) (base : Path) (source : SourceFile)
    (index : Nat) : EntryDescription → Payload → Prop where
  | label (name : String) : Becomes files base source index (.label name) (.label name)
  | instruction (mnemonic : String) (size : UInt64) :
      Becomes files base source index (.instruction mnemonic size) (.instruction mnemonic size)
  | data (values : List UInt8) (declared : Option UInt64) :
      Becomes files base source index (.data values declared)
        (.data ⟨values, max (declared.getD 0) values.length.toUInt64⟩)
  | slot (size : UInt64) : Becomes files base source index (.slot size) (.slot size)
  | binary {text : Path} {size : UInt64} :
      files (source.includePath base text) >>= FileNode.size? = .ok size →
      Becomes files base source index (.binary text)
        (.binary ⟨⟨source.name, index⟩, source.includePath base text, size⟩)

inductive Item where
  | header (declaration : Declaration)
  /-- An entry of the section that is declared so. -/
  | entry (source : SourceFile) (declaration : Declaration) (index : Nat)
      (described : EntryDescription)

namespace Item

def location : Item → Location
  | header declaration => declaration.location
  | entry source _ index _ => ⟨source.name, index⟩

/-- Why an item is refused: its declaration cannot be bound, the region has no place for
it, or the file that it includes cannot be measured. -/
inductive Refused (files : Lookup) (base : Path) : Item → Error → Prop where
  | unbound {declaration : Declaration} {error : Error} :
      declaration.bind = .error error → Refused files base (.header declaration) error
  | illegal {source : SourceFile} {declaration : Declaration} {index : Nat}
      {described : EntryDescription} {bound : Section} {payload : Payload}
      {violation : Violation} :
      declaration.bind = .ok bound → described.Becomes files base source index payload →
      payload.violation? bound.binding.region.storage = some violation →
      Refused files base (.entry source declaration index described)
        (.illegalContent ⟨source.name, index⟩ violation)
  | unmeasured {source : SourceFile} {declaration : Declaration} {index : Nat} {text : Path}
      {cause : Fault} :
      files (source.includePath base text) >>= FileNode.size? = .error cause →
      Refused files base (.entry source declaration index (.binary text))
        (.includeFailed ⟨source.name, index⟩ (source.includePath base text) cause)

/-- What comes of items in their order: a value if none is refused, else the error of
the first one that is. -/
def Outcome {Value : Type} (files : Lookup) (base : Path) (items : List Item)
    (accepts : Value → Prop) : Except Error Value → Prop
  | .ok value => (∀ item ∈ items, ∀ error, ¬item.Refused files base error) ∧ accepts value
  | .error error =>
      ∃ before item behind, items = before ++ item :: behind ∧
        (∀ other ∈ before, ∀ error, ¬other.Refused files base error) ∧
        item.Refused files base error

end Item

namespace SectionDescription

/-- The items of a section whose header has the given source index. -/
def items (described : SectionDescription) (source : SourceFile) (name : String) (index : Nat) :
    List Item :=
  let declaration := described.declaration source.name name index
  .header declaration ::
    described.entries.mapIdx fun position entry =>
      .entry source declaration (index + 1 + position) entry

end SectionDescription

/-- The source index of the header at a position, where the first header has `start`:
every section in front takes one index for its header and one for each entry. -/
def headerIndex (start : Nat) (sections : List (String × SectionDescription)) (position : Nat) :
    Nat :=
  start + ((sections.take position).map fun declared => 1 + declared.2.entries.length).sum

def sectionItems (source : SourceFile) (start : Nat)
    (sections : List (String × SectionDescription)) : List Item :=
  (sections.mapIdx fun position declared =>
    declared.2.items source declared.1 (headerIndex start sections position)).flatten

/-- The items of all files. Every file counts its own from zero. -/
def Description.items (description : Description) (directory : Path) : List Item :=
  description.files.flatMap fun file => sectionItems (file.source directory) 0 file.sections

/-- Binding keeps the file, or says at which header of it the error is. -/
theorem Declaration.binding_cases (declaration : Declaration) :
    (∃ error, declaration.binding = .error error ∧
      error.location? = some declaration.location) ∨
    ∃ bound, declaration.binding = .ok bound ∧ bound.file = declaration.file := by
  unfold binding
  split
  · exact .inl ⟨_, rfl, rfl⟩
  · split
    · exact .inl ⟨_, rfl, rfl⟩
    · split
      · exact .inr ⟨_, rfl, rfl⟩
      · dsimp only
        split
        · exact .inr ⟨_, rfl, rfl⟩
        · exact .inl ⟨_, rfl, rfl⟩

theorem Declaration.location?_of_bind {declaration : Declaration} {error : Error}
    (unbound : declaration.bind = .error error) :
    error.location? = some declaration.location := by
  unfold bind at unbound
  obtain ⟨cause, failed, location⟩ | ⟨bound, accepted, -⟩ := declaration.binding_cases
  · rw [failed] at unbound
    cases unbound
    exact location
  · rw [accepted] at unbound
    cases unbound

theorem Declaration.file_of_binding {declaration : Declaration} {bound : Binding}
    (accepted : declaration.binding = .ok bound) : bound.file = declaration.file := by
  obtain ⟨cause, failed, -⟩ | ⟨other, found, sameFile⟩ := declaration.binding_cases
  · rw [failed] at accepted
    cases accepted
  · rw [found] at accepted
    cases accepted
    exact sameFile

namespace Item

variable {files : Lookup} {base : Path}

theorem Refused.location?_eq {item : Item} {error : Error}
    (refused : item.Refused files base error) : error.location? = some item.location := by
  cases refused with
  | unbound unbound => exact Declaration.location?_of_bind unbound
  | illegal => rfl
  | unmeasured => rfl

namespace Outcome

theorem of_refused {Value : Type} {accepts : Value → Prop} {item : Item} {error : Error}
    (refused : item.Refused files base error) :
    Outcome files base [item] accepts (.error error) :=
  ⟨[], item, [], rfl, by simp, refused⟩

theorem of_accepted {Value : Type} {accepts : Value → Prop} {item : Item} {value : Value}
    (accepted : ∀ error, ¬item.Refused files base error) (holds : accepts value) :
    Outcome files base [item] accepts (.ok value) :=
  ⟨List.forall_mem_singleton.mpr accepted, holds⟩

variable {First Second : Type} {items front behind : List Item} {accepts : First → Prop}
  {acceptsNext : Second → Prop}

theorem imp {weaker : First → Prop} {outcome : Except Error First}
    (first : Outcome files base items accepts outcome)
    (implied : ∀ value, accepts value → weaker value) :
    Outcome files base items weaker outcome := by
  cases outcome with
  | error error => exact first
  | ok value => exact ⟨first.1, implied value first.2⟩

/-- Two parts of a description, one behind the other. -/
theorem bind {outcome : Except Error First} {step : First → Except Error Second}
    (first : Outcome files base front accepts outcome)
    (next : ∀ value, accepts value → Outcome files base behind acceptsNext (step value)) :
    Outcome files base (front ++ behind) acceptsNext (outcome.bind step) := by
  cases outcome with
  | error error =>
      obtain ⟨before, item, others, rfl, accepted, refused⟩ := first
      exact ⟨before, item, others ++ behind, by simp, accepted, refused⟩
  | ok value =>
      obtain ⟨accepted, holds⟩ := first
      have second := next value holds
      change Outcome files base (front ++ behind) acceptsNext (step value)
      cases result : step value with
      | error error =>
          rw [result] at second
          obtain ⟨before, item, others, rfl, acceptedToo, refused⟩ := second
          exact ⟨front ++ before, item, others, by simp,
            List.forall_mem_append.mpr ⟨accepted, acceptedToo⟩, refused⟩
      | ok final =>
          rw [result] at second
          exact ⟨List.forall_mem_append.mpr ⟨accepted, second.1⟩, second.2⟩

end Outcome

end Item

end RomLayout
