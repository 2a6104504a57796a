import Mathlib.Algebra.GroupWithZero.Nat
import Mathlib.Data.List.Perm.Basic
import RomLayout.Proofs.Json.Plain

set_option autoImplicit false

/-!
Which fields an object has does not depend on the order of its members, and members with
other names make no difference to them.

What is read from an object is read by looking its fields up. So two objects are read
alike if every lookup gives the same in both, or something that is read as the same.
-/

namespace RomLayout.Json

abbrev Members := List (Option String × Json)

section Extent

theorem nestingOfElements_le_iff {depth : Nat} {elements : List Json} :
    nestingOfElements elements ≤ depth ↔ ∀ element ∈ elements, element.nesting ≤ depth := by
  induction elements with
  | nil => simp [nestingOfElements]
  | cons element others inductionHypothesis =>
      rw [nestingOfElements, Nat.max_le, inductionHypothesis, List.forall_mem_cons]

theorem nestingOfMembers_le_iff {depth : Nat} {members : Members} :
    nestingOfMembers members ≤ depth ↔ ∀ member ∈ members, member.2.nesting ≤ depth := by
  induction members with
  | nil => simp [nestingOfMembers]
  | cons member others inductionHypothesis =>
      rw [nestingOfMembers, Nat.max_le, inductionHypothesis, List.forall_mem_cons]

theorem areReadableElements_iff {elements : List Json} :
    areReadableElements elements ↔ ∀ element ∈ elements, element.isReadable := by
  induction elements with
  | nil => simp [areReadableElements]
  | cons element others inductionHypothesis =>
      rw [areReadableElements, Bool.and_eq_true, inductionHypothesis, List.forall_mem_cons]

theorem areReadableMembers_iff {members : Members} :
    areReadableMembers members ↔ ∀ member ∈ members, member.1.isSome ∧ member.2.isReadable := by
  induction members with
  | nil => simp [areReadableMembers]
  | cons member others inductionHypothesis =>
      rw [areReadableMembers, Bool.and_eq_true, Bool.and_eq_true, inductionHypothesis,
        List.forall_mem_cons]

end Extent

/-- Values whose numbers are integers of 64 bits and whose strings satisfy a condition. -/
inductive Bounded (proper : Option String → Prop) : Json → Prop where
  | null : Bounded proper .null
  | boolean (value : Bool) : Bounded proper (.boolean value)
  | natural {value : Nat} :
      value < UInt64.size → Bounded proper (.number (Numeral.ofNat 10 value))
  | negative {value : Nat} :
      value ≤ 2 ^ 63 → Bounded proper (.number ('-' :: Numeral.ofNat 10 value))
  | string {text : Option String} : proper text → Bounded proper (.string text)
  | array {elements : List Json} :
      (∀ element ∈ elements, Bounded proper element) → Bounded proper (.array elements)
  | object {members : Members} :
      (∀ member ∈ members, proper member.1) → (∀ member ∈ members, Bounded proper member.2) →
      Bounded proper (.object members)

/-- A sign makes no difference to whether a number is finite. -/
theorem isReadable_negative (literal : List Char) :
    (number ('-' :: literal)).isReadable = (number literal).isReadable := by
  have sameParts : Number.ofLiteral ('-' :: literal) = Number.ofLiteral literal := by
    have notDigit : Numeral.digit? 10 '-' = none := by decide
    have notMark : Number.isExponentMark '-' = false := by decide
    simp [Number.ofLiteral, Number.digitsIn, notDigit, notMark]
  rw [isReadable, isReadable, sameParts]

theorem Bounded.isReadable {json : Json} (bounded : json.Bounded (·.isSome)) :
    json.isReadable := by
  induction bounded with
  | null | boolean => rfl
  | natural fits => exact isReadable_number fits
  | negative fits =>
      rw [isReadable_negative]
      exact isReadable_number (Nat.lt_of_le_of_lt fits (by decide))
  | string proper => exact proper
  | array _ inductionHypothesis => exact areReadableElements_iff.mpr inductionHypothesis
  | object named _ inductionHypothesis =>
      exact areReadableMembers_iff.mpr fun member isMember =>
        ⟨named member isMember, inductionHypothesis member isMember⟩

/-- The members that have one of the names, as fields. -/
def known (names : List String) (members : Members) : List (String × Json) :=
  (members.filterMap fun (name, value) => name.map fun name => (name, value)).filter fun field =>
    names.contains field.1

/-- Every name is a text, and none of the given ones stands twice. -/
def HasFields (names : List String) (members : Members) : Prop :=
  (∀ member ∈ members, member.1.isSome) ∧
    ∀ name ∈ names, ((known names members).filter (·.1 == name)).length ≤ 1

section Fields

variable {names : List String} {members others : Members} {name : String} {value : Json}

theorem fields?_of_hasFields (has : HasFields names members) :
    fields? names (.object members) = some (known names members) := by
  apply if_pos
  constructor
  · rw [List.filterMap_length_eq_length]
    intro member isMember
    rw [Option.isSome_map]
    exact has.1 member isMember
  · rw [List.all_eq_true]
    intro name isName
    exact decide_eq_true (has.2 name isName)

theorem fields?_of_not_hasFields (has : ¬HasFields names members) :
    fields? names (.object members) = none := by
  apply if_neg
  rintro ⟨sameLength, once⟩
  rw [List.filterMap_length_eq_length] at sameLength
  rw [List.all_eq_true] at once
  apply has
  constructor
  · intro member isMember
    have named := sameLength member isMember
    rwa [Option.isSome_map] at named
  · intro name isName
    exact of_decide_eq_true (once name isName)

theorem known_cons_of_mem (isKnown : name ∈ names) :
    known names ((some name, value) :: members) = (name, value) :: known names members := by
  simp [known, isKnown]

theorem known_cons_of_not_mem (isUnknown : name ∉ names) :
    known names ((some name, value) :: members) = known names members := by
  simp [known, isUnknown]

theorem known_append (front behind : Members) :
    known names (front ++ behind) = known names front ++ known names behind := by
  rw [known, List.filterMap_append, List.filter_append]
  rfl

/-- Two readings of fields, of which either none succeeds, or both do and every lookup
gives the same in both, an exception apart. -/
def Alike (exception : String → Option Json → Option Json → Prop) :
    Option (List (String × Json)) → Option (List (String × Json)) → Prop :=
  Option.Rel fun first second =>
    ∀ name, first.lookup name = second.lookup name ∨
      exception name (first.lookup name) (second.lookup name)

variable {exception : String → Option Json → Option Json → Prop}

theorem alike_refl (fields : Option (List (String × Json))) : Alike exception fields fields := by
  cases fields with
  | none => exact .none
  | some fields => exact .some fun name => .inl rfl

theorem Alike.imp {weaker : String → Option Json → Option Json → Prop}
    {first second : Option (List (String × Json))}
    (implies : ∀ name before after, exception name before after → weaker name before after)
    (alike : Alike exception first second) : Alike weaker first second := by
  cases alike with
  | none => exact .none
  | some sameLookups => exact .some fun name => (sameLookups name).imp_right (implies name _ _)

/-- Two objects that have fields under the same conditions. -/
theorem alike_fields? (sameNames : HasFields names members ↔ HasFields names others)
    (sameLookups : HasFields names members → ∀ name,
      (known names members).lookup name = (known names others).lookup name ∨
        exception name ((known names members).lookup name) ((known names others).lookup name)) :
    Alike exception (fields? names (.object members)) (fields? names (.object others)) := by
  by_cases has : HasFields names members
  · rw [fields?_of_hasFields has, fields?_of_hasFields (sameNames.mp has)]
    exact .some (sameLookups has)
  · rw [fields?_of_not_hasFields has, fields?_of_not_hasFields (mt sameNames.mpr has)]
    exact .none

theorem lookup_eq_head?_filter (fields : List (String × Json)) (name : String) :
    fields.lookup name = (fields.filter (·.1 == name)).head?.map (·.2) := by
  induction fields with
  | nil => rfl
  | cons field behind inductionHypothesis =>
      obtain ⟨own, value⟩ := field
      by_cases isHere : own = name
      · simp [isHere]
      · have elsewhere : (name == own) = false := beq_eq_false_iff_ne.mpr (Ne.symm isHere)
        rw [List.lookup_cons, elsewhere, List.filter_cons_of_neg (by simpa using isHere)]
        exact inductionHypothesis

theorem eq_of_perm_of_length_le {Value : Type} {first second : List Value}
    (perm : first.Perm second) (short : first.length ≤ 1) : first = second := by
  match first, short with
  | [], _ => exact perm.nil_eq
  | [value], _ => exact (List.perm_singleton.mp perm.symm).symm

theorem alike_fields?_perm (perm : members.Perm others) :
    Alike exception (fields? names (.object members)) (fields? names (.object others)) := by
  have permKnown : (known names members).Perm (known names others) :=
    (perm.filterMap _).filter _
  apply alike_fields?
  · unfold HasFields
    simp only [perm.mem_iff, fun name => (permKnown.filter (·.1 == name)).length_eq]
  · intro has name
    left
    by_cases isKnown : name ∈ names
    · rw [lookup_eq_head?_filter, lookup_eq_head?_filter,
        eq_of_perm_of_length_le (permKnown.filter _) (has.2 name isKnown)]
    · have missing : ∀ members, (known names members).lookup name = none := by
        intro members
        rw [List.lookup_eq_none_iff]
        intro field isField
        have isName := (List.mem_filter.mp isField).2
        rw [List.contains_iff_mem] at isName
        rw [bne_iff_ne]
        rintro rfl
        exact isKnown isName
      rw [missing, missing]

theorem fields?_cons_of_not_mem (isUnknown : name ∉ names) :
    fields? names (.object ((some name, value) :: members)) = fields? names (.object members) := by
  have same : HasFields names ((some name, value) :: members) ↔ HasFields names members := by
    simp [HasFields, known_cons_of_not_mem isUnknown]
  by_cases has : HasFields names members
  · rw [fields?_of_hasFields has, fields?_of_hasFields (same.mpr has),
      known_cons_of_not_mem isUnknown]
  · rw [fields?_of_not_hasFields has, fields?_of_not_hasFields (mt same.mp has)]

/-- One more member makes a difference to the lookup of its own name alone. -/
theorem alike_fields?_cons (isAbsent : ∀ member ∈ members, member.1 ≠ some name) :
    Alike (fun other first second => other = name ∧ first = none ∧ second = some value)
      (fields? names (.object members))
      (fields? names (.object ((some name, value) :: members))) := by
  by_cases isKnown : name ∈ names
  · have noField : ∀ field ∈ known names members, field.1 ≠ name := by
      intro field isField
      obtain ⟨member, isMember, made⟩ := List.mem_filterMap.mp (List.mem_filter.mp isField).1
      obtain ⟨own, isOwn, rfl⟩ := Option.map_eq_some_iff.mp made
      rintro rfl
      exact isAbsent member isMember isOwn
    have noneFound : (known names members).filter (·.1 == name) = [] := by
      rw [List.filter_eq_nil_iff]
      intro field isField isHere
      exact noField field isField (eq_of_beq isHere)
    apply alike_fields?
    · unfold HasFields
      rw [known_cons_of_mem isKnown, List.forall_mem_cons]
      apply and_congr
      · exact ⟨fun named => ⟨rfl, named⟩, fun named => named.2⟩
      · apply forall₂_congr
        intro other _
        by_cases same : name = other
        · subst same
          simp [noneFound]
        · rw [List.filter_cons_of_neg (by simpa using same)]
    · intro _ other
      rw [known_cons_of_mem isKnown, List.lookup_cons]
      by_cases same : other = name
      · subst same
        right
        rw [lookup_eq_head?_filter, noneFound]
        simp
      · left
        rw [beq_eq_false_iff_ne.mpr same]
  · rw [fields?_cons_of_not_mem isKnown]
    exact alike_refl _

/-- Another value for one member makes a difference to the lookup of its name alone. -/
theorem alike_fields?_replace {other : Json} (front behind : Members) :
    Alike (fun found first second => found = name ∧ first = some value ∧ second = some other)
      (fields? names (.object (front ++ (some name, value) :: behind)))
      (fields? names (.object (front ++ (some name, other) :: behind))) := by
  by_cases isKnown : name ∈ names
  · have split : ∀ value, known names (front ++ (some name, value) :: behind) =
        known names front ++ (name, value) :: known names behind := by
      intro value
      rw [known_append, known_cons_of_mem isKnown]
    apply alike_fields?
    · unfold HasFields
      rw [split, split]
      simp only [List.forall_mem_append, List.forall_mem_cons, List.filter_append,
        List.length_append, List.filter_cons]
      apply and_congr Iff.rfl
      apply forall₂_congr
      intro found _
      split <;> rfl
    · intro _ found
      rw [split, split, List.lookup_append, List.lookup_append, List.lookup_cons,
        List.lookup_cons]
      by_cases same : found = name
      · subst same
        cases (known names front).lookup found with
        | none => simp
        | some earlier => simp
      · rw [beq_eq_false_iff_ne.mpr same]
        exact .inl rfl
  · have sameKnown : known names (front ++ (some name, value) :: behind) =
        known names (front ++ (some name, other) :: behind) := by
      rw [known_append, known_append, known_cons_of_not_mem isKnown,
        known_cons_of_not_mem isKnown]
    apply alike_fields?
    · unfold HasFields
      rw [sameKnown]
      simp only [List.forall_mem_append, List.forall_mem_cons]
    · intro _ found
      rw [sameKnown]
      exact .inl rfl

theorem kind?_of_repeated
    (repeated : ¬(members.filter (·.1 == some "kind")).length ≤ 1) :
    (Json.object members).kind? = none := by
  unfold kind?
  dsimp only
  split
  · rename_i single
    rw [single] at repeated
    exact absurd (Nat.le_refl 1) repeated
  · rfl

theorem kind?_perm (perm : members.Perm others) :
    (Json.object members).kind? = (Json.object others).kind? := by
  have permKinds := perm.filter (·.1 == some "kind")
  by_cases single : (members.filter (·.1 == some "kind")).length ≤ 1
  · unfold kind?
    dsimp only
    rw [eq_of_perm_of_length_le permKinds single]
  · rw [kind?_of_repeated single, kind?_of_repeated (permKinds.length_eq ▸ single)]

theorem kind?_cons_of_ne (notKind : name ≠ "kind") :
    (Json.object ((some name, value) :: members)).kind? = (Json.object members).kind? := by
  unfold kind?
  dsimp only
  rw [List.filter_cons_of_neg (by simpa using notKind)]

end Fields

end RomLayout.Json
