import Mathlib.Logic.Relation
import RomLayout.Snapshot.Reader
import RomLayout.Proofs.Json.Fields
import RomLayout.Proofs.Json.RoundTrip

set_option autoImplicit false

/-!
Two texts with one meaning are read alike. Members may stand in any order, more members
may stand beside the fields, and null may stand for what is absent.

An entry is kept as a value until its kind is known, so what is added to it has to be
readable. What is added to a section is skipped where it stands.
-/

namespace RomLayout

namespace Snapshot

open Json

/-- What may be added to an object as a member. -/
abbrev Addition := Option String → Json → Prop

/-- Any name, and any value with 64 bit integers that is not nested too deeply. -/
def anyAddition : Addition := fun _ value =>
  value.Bounded (fun _ => True) ∧ value.nesting < 100

def namedAddition : Addition := fun name value => name.isSome ∧ anyAddition name value

/-- An addition whose strings and names are all texts. -/
def properAddition : Addition := fun name value =>
  name.isSome ∧ value.Bounded (·.isSome) ∧ value.nesting < 100

/-- The name is no field of an entry that has these members. -/
def IsForeign (members : Members) (name : Option String) : Prop :=
  name ≠ some "kind" ∧
    ∀ kind names, (Json.object members).kind? = some kind → entryFields? kind = some names →
      ∀ field ∈ names, name ≠ some field

inductive EntryEdit (admits : Addition) : Members → Members → Prop where
  | permuted {members others : Members} : members.Perm others → EntryEdit admits members others
  | added {members : Members} {name : Option String} {value : Json} :
      IsForeign members name → admits name value →
      EntryEdit admits members ((name, value) :: members)
  | nulled {members : Members} {name : String} :
      name = "offset" ∨ name = "label" → (∀ member ∈ members, member.1 ≠ some name) →
      EntryEdit admits members ((some name, .null) :: members)

/-- A change of a section that keeps its meaning. -/
inductive Edit (inSection inEntry : Addition) : Json → Json → Prop where
  | permuted {members others : Members} :
      members.Perm others → Edit inSection inEntry (.object members) (.object others)
  | added {members : Members} {name : Option String} {value : Json} :
      (∀ field ∈ sectionFields, name ≠ some field) → inSection name value →
      Edit inSection inEntry (.object members) (.object ((name, value) :: members))
  | entry {before after members others : Members} {front behind : List Json} :
      EntryEdit inEntry members others →
      Edit inSection inEntry
        (.object (before ++ (some "entries", .array (front ++ .object members :: behind)) :: after))
        (.object (before ++ (some "entries", .array (front ++ .object others :: behind)) :: after))

section Entry

/-- Null takes the place of a missing offset or label. -/
def Nulled (name : String) (first second : Option Json) : Prop :=
  (name = "offset" ∨ name = "label") ∧ first = none ∧ second = some .null

variable {first second : Json} {members others : Members}

theorem entry?_eq_of_alike (sameKind : first.kind? = second.kind?)
    (alike : ∀ kind names, first.kind? = some kind → entryFields? kind = some names →
      Alike Nulled (first.fields? names) (second.fields? names)) :
    entry? first = entry? second := by
  unfold entry?
  rw [← sameKind]
  cases isKind : first.kind? with
  | none => rfl
  | some kind =>
      simp only [Option.bind_eq_bind, Option.bind_some]
      cases isKnown : entryFields? kind with
      | none => rfl
      | some names =>
          simp only [Option.bind_some]
          have alikeFields := alike kind names isKind isKnown
          generalize first.fields? names = firstFields at alikeFields
          generalize second.fields? names = secondFields at alikeFields
          cases alikeFields with
          | none => rfl
          | @some fields others sameLookups =>
              have sameRequired : ∀ {Value : Type} (name : String) (read : Json → Option Value),
                  name ≠ "offset" → name ≠ "label" →
                  required? fields name read = required? others name read := by
                intro Value name read notOffset notLabel
                obtain same | ⟨isOffset | isLabel, -⟩ := sameLookups name
                · rw [required?, required?, same]
                · exact absurd isOffset notOffset
                · exact absurd isLabel notLabel
              have sameOptional : ∀ {Value : Type} (name : String) (read : Json → Option Value),
                  optional? fields name read = optional? others name read := by
                intro Value name read
                obtain same | ⟨-, absent, isNull⟩ := sameLookups name
                · rw [optional?, optional?, same]
                · rw [optional?, optional?, absent, isNull]
                  rfl
              have sameContent : content? kind fields = content? kind others := by
                unfold content?
                rw [sameRequired "mnemonic" _ (by decide) (by decide),
                  sameRequired "values" _ (by decide) (by decide),
                  sameRequired "src" _ (by decide) (by decide)]
              simp only [Option.bind_some, sameOptional, sameContent,
                sameRequired "size" _ (by decide) (by decide),
                sameRequired "name" _ (by decide) (by decide)]

theorem entry?_eq_of_edit (edit : EntryEdit properAddition members others) :
    entry? (.object members) = entry? (.object others) := by
  cases edit with
  | permuted perm =>
      apply entry?_eq_of_alike (kind?_perm perm)
      intro kind names _ _
      exact alike_fields?_perm perm
  | @added name value foreign addition =>
      obtain ⟨name, rfl⟩ := Option.isSome_iff_exists.mp addition.1
      have notKind : name ≠ "kind" := mt (congrArg some) foreign.1
      apply entry?_eq_of_alike (kind?_cons_of_ne notKind).symm
      intro kind names isKind isKnown
      have isUnknown : name ∉ names := fun isField =>
        foreign.2 kind names isKind isKnown name isField rfl
      rw [fields?_cons_of_not_mem isUnknown]
      exact alike_refl _
  | @nulled name nullable absent =>
      have notKind : name ≠ "kind" := by
        rintro rfl
        exact absurd nullable (by decide)
      apply entry?_eq_of_alike (kind?_cons_of_ne notKind).symm
      intro kind names _ _
      apply (alike_fields?_cons absent).imp
      rintro _ _ _ ⟨rfl, missing, isNull⟩
      exact ⟨nullable, missing, isNull⟩

theorem isReadable_of_edit (edit : EntryEdit properAddition members others) :
    (Json.object members).isReadable = (Json.object others).isReadable := by
  rw [Bool.eq_iff_iff, isReadable, isReadable, areReadableMembers_iff, areReadableMembers_iff]
  cases edit with
  | permuted perm => simp only [perm.mem_iff]
  | added _ addition =>
      rw [List.forall_mem_cons]
      exact ⟨fun readable => ⟨⟨addition.1, addition.2.1.isReadable⟩, readable⟩, fun both => both.2⟩
  | nulled =>
      rw [List.forall_mem_cons]
      exact ⟨fun readable => ⟨⟨rfl, rfl⟩, readable⟩, fun both => both.2⟩

theorem nesting_le_iff_of_edit {depth : Nat} (deep : 100 ≤ depth)
    (edit : EntryEdit properAddition members others) :
    (Json.object members).nesting ≤ depth ↔ (Json.object others).nesting ≤ depth := by
  obtain ⟨inner, rfl⟩ := Nat.exists_eq_add_of_le' (Nat.le_trans (by decide : 1 ≤ 100) deep)
  rw [nesting, nesting, Nat.add_le_add_iff_right, Nat.add_le_add_iff_right,
    nestingOfMembers_le_iff, nestingOfMembers_le_iff]
  cases edit with
  | permuted perm => simp only [perm.mem_iff]
  | @added _ value _ addition =>
      have shallow : value.nesting ≤ inner := by
        have := addition.2.2
        omega
      rw [List.forall_mem_cons]
      exact ⟨fun others => ⟨shallow, others⟩, fun both => both.2⟩
  | nulled =>
      rw [List.forall_mem_cons]
      exact ⟨fun others => ⟨Nat.zero_le _, others⟩, fun both => both.2⟩

/-- The list of entries is read as before if one of its entries is. -/
theorem entries?_eq_of_edit (front behind : List Json)
    (edit : EntryEdit properAddition members others) :
    entries? (.array (front ++ .object members :: behind)) =
      entries? (.array (front ++ .object others :: behind)) := by
  have sameNesting : (Json.array (front ++ .object members :: behind)).nesting < maxNesting ↔
      (Json.array (front ++ .object others :: behind)).nesting < maxNesting := by
    rw [nesting, nesting, show maxNesting = 125 + 1 + 1 from rfl, Nat.add_lt_add_iff_right,
      Nat.add_lt_add_iff_right, Nat.lt_succ_iff, Nat.lt_succ_iff, nestingOfElements_le_iff,
      nestingOfElements_le_iff]
    simp only [List.forall_mem_append, List.forall_mem_cons,
      nesting_le_iff_of_edit (by decide : 100 ≤ 125) edit]
  have sameReadable : (Json.array (front ++ .object members :: behind)).isReadable =
      (Json.array (front ++ .object others :: behind)).isReadable := by
    rw [Bool.eq_iff_iff, isReadable, isReadable, areReadableElements_iff, areReadableElements_iff]
    simp only [List.forall_mem_append, List.forall_mem_cons, isReadable_of_edit edit]
  rw [entries?, entries?]
  simp only [sameNesting, sameReadable, elements?, Option.bind_some, List.mapM_append,
    List.mapM_cons, entry?_eq_of_edit edit]

end Entry

section Section

variable {inSection inEntry : Addition} {first second : Json} {members others : Members}

/-- What stands for the entries is read as before. -/
def SameEntries (name : String) (first second : Option Json) : Prop :=
  name = "entries" ∧ first.bind entries? = second.bind entries?

theorem ofJson?_eq_of_alike
    (alike : Alike SameEntries (first.fields? sectionFields) (second.fields? sectionFields)) :
    SectionSnapshot.ofJson? first = SectionSnapshot.ofJson? second := by
  unfold SectionSnapshot.ofJson?
  generalize first.fields? sectionFields = firstFields at alike
  generalize second.fields? sectionFields = secondFields at alike
  cases alike with
  | none => rfl
  | @some fields others sameLookups =>
      have sameRequired : ∀ {Value : Type} (name : String) (read : Json → Option Value),
          name ≠ "entries" → required? fields name read = required? others name read := by
        intro Value name read notEntries
        obtain same | ⟨isEntries, -⟩ := sameLookups name
        · rw [required?, required?, same]
        · exact absurd isEntries notEntries
      have sameEntries : required? fields "entries" entries? =
          required? others "entries" entries? := by
        obtain same | ⟨-, same⟩ := sameLookups "entries"
        · rw [required?, required?, same]
        · exact same
      simp only [Option.bind_eq_bind, Option.bind_some, sameEntries,
        sameRequired "file" _ (by decide), sameRequired "name" _ (by decide),
        sameRequired "region" _ (by decide), sameRequired "bank" _ (by decide),
        sameRequired "start" _ (by decide), sameRequired "end" _ (by decide),
        sameRequired "offset" _ (by decide), sameRequired "bankOffset" _ (by decide),
        sameRequired "writeable" _ (by decide)]

theorem ofJson?_eq_of_edit (edit : Edit namedAddition properAddition first second) :
    SectionSnapshot.ofJson? first = SectionSnapshot.ofJson? second := by
  apply ofJson?_eq_of_alike
  cases edit with
  | permuted perm => exact alike_fields?_perm perm
  | @added members name value foreign addition =>
      obtain ⟨name, rfl⟩ := Option.isSome_iff_exists.mp addition.1
      have isUnknown : name ∉ sectionFields := fun isField => foreign name isField rfl
      rw [fields?_cons_of_not_mem isUnknown]
      exact alike_refl _
  | @entry before after members others front behind edit =>
      apply (alike_fields?_replace before after).imp
      rintro _ _ _ ⟨rfl, rfl, rfl⟩
      exact ⟨rfl, entries?_eq_of_edit front behind edit⟩

theorem ofJson?_eq_of_edits
    (edits : Relation.ReflTransGen (Edit namedAddition properAddition) first second) :
    SectionSnapshot.ofJson? first = SectionSnapshot.ofJson? second := by
  induction edits with
  | refl => rfl
  | tail _ edit inductionHypothesis => exact inductionHypothesis.trans (ofJson?_eq_of_edit edit)

end Section

/-- Two texts of one meaning are both refused or both read as the same snapshot. -/
theorem ofText?_eq_of_edits {json changed : Json} {first second : String}
    (written : json.Writes first)
    (edits : Relation.ReflTransGen (Edit namedAddition properAddition) json changed)
    (writtenChanged : changed.Writes second) :
    SectionSnapshot.ofText? first = SectionSnapshot.ofText? second := by
  rw [SectionSnapshot.ofText?, SectionSnapshot.ofText?, written.ofText?_eq,
    writtenChanged.ofText?_eq, Option.bind_some, Option.bind_some, ofJson?_eq_of_edits edits]

section Example

/-- The members of a section with one entry, which has the given ones. -/
def sectionMembers (entry : Members) : Members :=
  [ (some "file", .string (some "main.gbc")), (some "name", .string (some "Test")),
    (some "region", .string (some "ROM0")), (some "bank", .number ['0']),
    (some "start", .number ['0']), (some "end", .number ['1']), (some "offset", .number ['0']),
    (some "bankOffset", .number ['0']), (some "writeable", .boolean false),
    (some "entries", .array [.object entry]) ]

def slotMembers : Members :=
  [(some "kind", .string (some "Variable")), (some "size", .number ['1'])]

theorem isGrammatical_sectionMembers {members : Members} (follows : AreGrammaticalMembers members) :
    (Json.object (sectionMembers members)).IsGrammatical := by
  have digits : numberEnd? ['0'] = some [] ∧ numberEnd? ['1'] = some [] := ⟨rfl, rfl⟩
  simp [sectionMembers, IsGrammatical, AreGrammaticalMembers, AreGrammaticalElements, follows,
    digits]

theorem edit_sectionMembers {inSection inEntry : Addition} {members others : Members}
    (edit : EntryEdit inEntry members others) :
    Edit inSection inEntry (.object (sectionMembers members)) (.object (sectionMembers others)) :=
  @Edit.entry _ _ [_, _, _, _, _, _, _, _, _] [] _ _ [] [] edit

def slotSection : Json := .object (sectionMembers slotMembers)

theorem areGrammaticalMembers_slotMembers : AreGrammaticalMembers slotMembers :=
  ⟨trivial, rfl, trivial⟩

theorem isGrammatical_slotSection : slotSection.IsGrammatical :=
  isGrammatical_sectionMembers areGrammaticalMembers_slotMembers

/-- The entry of `slotMembers` with its kind last, a null label and a note. -/
def decoratedMembers : Members :=
  (some "note", .array [.null]) :: (some "label", .null) :: slotMembers.reverse

/-- The kind of a section means nothing, so it may be anything. -/
def decoratedSection : Json :=
  .object ((some "kind", .string none) :: sectionMembers decoratedMembers)

theorem isForeign_of_ne {members : Members} {name : String}
    (isSlot : (Json.object members).kind? = some "Variable")
    (isOther : name ∉ ["kind", "offset", "size", "label"]) : IsForeign members (some name) := by
  have notField : ∀ field ∈ ["kind", "offset", "size", "label"], some name ≠ some field := by
    rintro _ isField ⟨⟩
    exact isOther isField
  refine ⟨notField "kind" List.mem_cons_self, ?_⟩
  intro kind names isKind isKnown
  rw [isSlot] at isKind
  cases isKind
  cases isKnown
  exact notField

theorem edits_decorated :
    Relation.ReflTransGen (Edit namedAddition properAddition) slotSection decoratedSection := by
  have turned : EntryEdit properAddition slotMembers slotMembers.reverse :=
    .permuted slotMembers.reverse_perm.symm
  have labelled : EntryEdit properAddition slotMembers.reverse
      ((some "label", .null) :: slotMembers.reverse) := .nulled (.inr rfl) (by decide)
  have noted : EntryEdit properAddition ((some "label", .null) :: slotMembers.reverse)
      decoratedMembers := by
    apply EntryEdit.added (isForeign_of_ne rfl (by decide))
    exact ⟨rfl, .array (List.forall_mem_singleton.mpr .null), by decide⟩
  apply Relation.ReflTransGen.tail _ (.added (by decide) ⟨rfl, .string trivial, by decide⟩)
  exact ((Relation.ReflTransGen.single (edit_sectionMembers turned)).tail
    (edit_sectionMembers labelled)).tail (edit_sectionMembers noted)

theorem ofText?_eq_of_edits_decorated :
    SectionSnapshot.ofText? slotSection.pretty = SectionSnapshot.ofText? decoratedSection.pretty ∧
      (SectionSnapshot.ofText? decoratedSection.pretty).isSome := by
  have decorated : decoratedSection.IsGrammatical :=
    ⟨trivial, isGrammatical_sectionMembers ⟨⟨trivial, trivial⟩, trivial, rfl, trivial, trivial⟩⟩
  constructor
  · exact ofText?_eq_of_edits (writes_pretty isGrammatical_slotSection) edits_decorated
      (writes_pretty decorated)
  · rw [SectionSnapshot.ofText?, ofText?_pretty decorated]
    decide

/-- A string that names half of a surrogate pair makes an entry unreadable, although nothing
asks for it. -/
theorem ofText?_ne_of_halfSurrogate :
    ¬∀ (json changed : Json) (first second : String), json.Writes first →
      Relation.ReflTransGen (Edit anyAddition anyAddition) json changed →
      changed.Writes second →
      SectionSnapshot.ofText? first = SectionSnapshot.ofText? second := by
  intro alike
  have half : AreGrammaticalMembers ((some "x", .string none) :: slotMembers) :=
    ⟨trivial, areGrammaticalMembers_slotMembers⟩
  have addition : EntryEdit anyAddition slotMembers ((some "x", .string none) :: slotMembers) := by
    apply EntryEdit.added (isForeign_of_ne rfl (by decide))
    exact ⟨.string trivial, by decide⟩
  have same := alike _ _ _ _ (writes_pretty isGrammatical_slotSection)
    (.single (edit_sectionMembers addition)) (writes_pretty (isGrammatical_sectionMembers half))
  rw [SectionSnapshot.ofText?, SectionSnapshot.ofText?, ofText?_pretty isGrammatical_slotSection,
    ofText?_pretty (isGrammatical_sectionMembers half)] at same
  revert same
  decide

end Example

end Snapshot

end RomLayout
