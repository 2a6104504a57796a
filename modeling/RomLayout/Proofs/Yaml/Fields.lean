import RomLayout.Yaml.Fields
import RomLayout.Proofs.Json.Plain
import RomLayout.Proofs.Yaml.Flow

set_option autoImplicit false

/-!
Nodes that hold a value, and reading the value from them. Numbers stand as words, so none
of them is taken for an absent value; texts stand in quotes.
-/

namespace RomLayout.Yaml

section Numerals

/-- A decimal is a run of digits, and a zero stands in front of no other digit. -/
theorem exists_decimal_cons (value : Nat) :
    ∃ first others, decimal value = first :: others ∧
      (∀ character ∈ first :: others, character.isDigit) ∧ (first = '0' → others = []) := by
  have digits : ∀ character ∈ decimal value, character.isDigit := fun character member =>
    Numeral.isDigit_of_mem_ofNat member
  rcases Nat.eq_zero_or_pos value with rfl | positive
  · have zero : decimal 0 = ['0'] := by
      rw [decimal, Numeral.ofNat, Numeral.digits]
      rfl
    exact ⟨'0', [], zero, zero ▸ digits, fun _ => rfl⟩
  · obtain ⟨digit, others, split, -, notZero⟩ :=
      @Numeral.exists_digits_cons 10 value (by decide) (by decide) positive
    have written : decimal value = Numeral.digitChar digit :: others.map Numeral.digitChar := by
      rw [decimal, Numeral.ofNat, split, List.map_cons]
    exact ⟨_, _, written, written ▸ digits, fun isZero => absurd isZero notZero⟩

theorem isAlphanum_of_isDigit {character : Char} (isDigit : character.isDigit) :
    character.isAlphanum := by
  rw [Char.isAlphanum, isDigit, Bool.or_true]

theorem isWord_decimal (value : Nat) : IsWord (decimal value) := by
  obtain ⟨first, others, split, digits, -⟩ := exists_decimal_cons value
  obtain ⟨isDigit, behind⟩ := List.forall_mem_cons.mp digits
  rw [split]
  exact .unsigned (isAlphanum_of_isDigit isDigit) fun character member =>
    isAlphanum_of_isDigit (behind character member)

theorem isWord_signedDecimal (value : Int) : IsWord (signedDecimal value) := by
  unfold signedDecimal
  split
  · obtain ⟨first, others, split, digits, -⟩ := exists_decimal_cons value.natAbs
    obtain ⟨isDigit, behind⟩ := List.forall_mem_cons.mp digits
    rw [split]
    exact .negative (isAlphanum_of_isDigit isDigit) fun character member =>
      isAlphanum_of_isDigit (behind character member)
  · exact isWord_decimal value.natAbs

theorem numeral?_decimal (value : Nat) : numeral? (decimal value) = some value := by
  obtain ⟨first, others, split, -, alone⟩ := exists_decimal_cons value
  have read : Numeral.toNat? 10 (decimal value) = some value :=
    Numeral.toNat?_ofNat (by decide) (by decide) value
  rw [split] at read ⊢
  unfold numeral?
  split
  case h_5 => exact read
  -- A zero in front stands alone.
  all_goals
    rename_i sameText
    obtain ⟨rfl, rfl⟩ := List.cons.inj sameText
    cases alone rfl

theorem unsigned?_decimal (value : Nat) : unsigned? (decimal value) = some value := by
  obtain ⟨first, others, split, digits, -⟩ := exists_decimal_cons value
  have read := numeral?_decimal value
  rw [split] at read ⊢
  unfold unsigned?
  split
  · rename_i sameText
    obtain ⟨rfl, -⟩ := List.cons.inj sameText
    exact absurd (digits '+' List.mem_cons_self) (by decide)
  · exact read

theorem signed?_signedDecimal (value : Int) : signed? (signedDecimal value) = some value := by
  unfold signedDecimal
  split
  · rename_i negative
    have same : -(value.natAbs : Int) = value := by omega
    rw [signed?, numeral?_decimal]
    exact congrArg some same
  · rename_i nonnegative
    obtain ⟨first, others, split, digits, -⟩ := exists_decimal_cons value.natAbs
    have read := unsigned?_decimal value.natAbs
    rw [split] at read ⊢
    unfold signed?
    split
    · rename_i sameText
      obtain ⟨rfl, -⟩ := List.cons.inj sameText
      exact absurd (digits '-' List.mem_cons_self) (by decide)
    · have same : (value.natAbs : Int) = value := by omega
      rw [read]
      exact congrArg some same

end Numerals

namespace Node

/-- A scalar without quotes. -/
def word (text : List Char) : Node := scalar (String.ofList text) true

/-- A scalar in quotes. -/
def quote (text : String) : Node := scalar text false

def natural (value : Nat) : Node := word (decimal value)

def integer (value : Int) : Node := word (signedDecimal value)

/-- A member of a mapping whose name stands without quotes. -/
def field (name : String) (value : Node) : Node × Node := (scalar name true, value)

def optionalField {Value : Type} (name : String) (write : Value → Node) (value : Option Value) :
    List (Node × Node) :=
  (value.map fun value => field name (write value)).toList

section Render

@[simp] theorem render_word (text : List Char) : (word text).render = text := by
  rw [word, render, if_pos rfl, String.toList_ofList]

@[simp] theorem render_quote (text : String) : (quote text).render = quoted text := by
  rw [quote, render, if_neg Bool.false_ne_true]

@[simp] theorem render_natural (value : Nat) : (natural value).render = decimal value :=
  render_word _

@[simp] theorem render_integer (value : Int) : (integer value).render = signedDecimal value :=
  render_word _

@[simp] theorem render_sequence (elements : List Node) :
    (sequence elements).render = bracketed (elements.map render) := by
  rw [render, renderElements_eq_map]

@[simp] theorem render_mapping (members : List (Node × Node)) :
    (mapping members).render =
      braced (members.map fun member => pair member.1.render member.2.render) := by
  rw [render, renderMembers_eq_map]

@[simp] theorem render_field (name : String) (value : Node) :
    pair (field name value).1.render (field name value).2.render =
      Yaml.field name value.render := by
  rw [field, render, if_pos rfl]
  rfl

@[simp] theorem map_render_optionalField {Value : Type} (name : String) (write : Value → Node)
    (value : Option Value) :
    (optionalField name write value).map (fun member => pair member.1.render member.2.render) =
      Yaml.optionalField name (fun value => (write value).render) value := by
  cases value with
  | none => rfl
  | some value => exact congrArg (fun text => [text]) (render_field name (write value))

end Render

section IsFlow

theorem isFlow_word {text : List Char} (isWord : IsWord text) : (word text).IsFlow := by
  apply IsFlow.scalar
  have written := render_word text
  rw [word] at written
  rw [written]
  exact .word isWord

theorem isFlow_natural (value : Nat) : (natural value).IsFlow := isFlow_word (isWord_decimal value)

theorem isFlow_integer (value : Int) : (integer value).IsFlow :=
  isFlow_word (isWord_signedDecimal value)

theorem isFlow_quote (text : String) : (quote text).IsFlow := by
  apply IsFlow.scalar
  have written := render_quote text
  rw [quote] at written
  rw [written]
  exact .quoted text

theorem isKey_quote {text : String} (short : (quoted text).length ≤ Scanner.maxKeyDistance) :
    (quote text).IsKey := by
  refine ⟨text, false, rfl, ?_⟩
  rw [render_quote]
  exact ⟨.quoted text, short⟩

/-- Names that can stand without quotes. -/
def IsFieldName (name : String) : Prop :=
  name.toList ≠ [] ∧ (∀ character ∈ name.toList, character.isAlphanum) ∧
    name.toList.length ≤ Scanner.maxKeyDistance

-- Looks at the letters of the name; characters are finitely many, but far too many to go through.
instance (name : String) : Decidable (IsFieldName name) :=
  decidable_of_iff
    (name.toList ≠ [] ∧ name.toList.all Char.isAlphanum ∧
      name.toList.length ≤ Scanner.maxKeyDistance)
    (by rw [IsFieldName, List.all_eq_true])

theorem isKey_name {name : String} (isName : IsFieldName name) : (scalar name true).IsKey := by
  obtain ⟨notEmpty, letters, short⟩ := isName
  have isWord : IsWord name.toList := by
    obtain ⟨first, others, split⟩ := List.exists_cons_of_ne_nil notEmpty
    rw [split, List.forall_mem_cons] at letters
    rw [split]
    exact .unsigned letters.1 letters.2
  have lexeme := Lexeme.word isWord
  rw [String.ofList_toList] at lexeme
  refine ⟨name, true, rfl, ?_⟩
  rw [render, if_pos rfl]
  exact ⟨lexeme, short⟩

/-- The member can stand in a mapping in brackets. -/
def IsFlowMember (member : Node × Node) : Prop := member.1.IsKey ∧ member.2.IsFlow

theorem isFlow_mapping {members : List (Node × Node)}
    (flows : ∀ member ∈ members, IsFlowMember member) : (mapping members).IsFlow :=
  .mapping (fun member isMember => (flows member isMember).1) fun member isMember =>
    (flows member isMember).2

theorem isFlowMember_field {name : String} {value : Node} (isName : IsFieldName name)
    (isFlow : value.IsFlow) : IsFlowMember (field name value) :=
  ⟨isKey_name isName, isFlow⟩

theorem isFlowMember_optionalField {Value : Type} {name : String} {write : Value → Node}
    (isName : IsFieldName name) (isFlow : ∀ value, (write value).IsFlow) (value : Option Value) :
    ∀ member ∈ optionalField name write value, IsFlowMember member := by
  cases value with
  | none => exact List.forall_mem_nil _
  | some value =>
      exact List.forall_mem_singleton.mpr (isFlowMember_field isName (isFlow value))

end IsFlow

section Values

theorem plain?_word (text : List Char) : (word text).plain? = some text := by
  rw [word, plain?, String.toList_ofList]

@[simp] theorem text?_quote (text : String) : (quote text).text? = some text := rfl

theorem natural?_natural {limit value : Nat} (fits : value < limit) :
    (natural value).natural? limit = some value := by
  rw [natural, natural?, plain?_word, Option.bind_some, unsigned?_decimal, Option.filter_some,
    if_pos (decide_eq_true fits)]

@[simp] theorem address?_natural (value : UInt64) :
    (natural value.toNat).address? = some value := by
  rw [address?, natural?_natural value.toNat_lt, Option.map_some, Nat.toUInt64,
    UInt64.ofNat_toNat]

@[simp] theorem byte?_natural (value : UInt8) : (natural value.toNat).byte? = some value := by
  rw [byte?, natural?_natural value.toNat_lt, Option.map_some, Nat.toUInt8, UInt8.ofNat_toNat]

@[simp] theorem signed64?_integer (value : Int64) :
    (integer value.toInt).signed64? = some value := by
  have inRange : Int64.minValue.toInt ≤ value.toInt ∧ value.toInt ≤ Int64.maxValue.toInt :=
    ⟨value.minValue_le_toInt, value.toInt_le⟩
  rw [integer, signed64?, plain?_word, Option.bind_some, signed?_signedDecimal,
    Option.filter_some, if_pos (decide_eq_true inRange), Option.map_some, Int64.ofInt_toInt]

theorem isAbsent_word {first : Char} {others : List Char}
    (starts : first = '-' ∨ first.isDigit) : (word (first :: others)).isAbsent = false := by
  rw [word, isAbsent, ← Bool.not_eq_true, List.contains_iff_mem]
  intro isMark
  simp only [List.mem_cons, List.not_mem_nil, or_false] at isMark
  obtain isMark | others := isMark
  · have isText := congrArg String.toList isMark
    rw [String.toList_ofList, String.toList_empty] at isText
    cases isText
  · obtain isMark | isMark | isMark | isMark := others <;>
      (have isText := congrArg String.toList isMark
       simp only [String.toList_ofList, String.reduceToList] at isText
       obtain ⟨rfl, -⟩ := isText
       exact absurd starts (by decide))

theorem isAbsent_natural (value : Nat) : (natural value).isAbsent = false := by
  obtain ⟨first, others, split, digits, -⟩ := exists_decimal_cons value
  rw [natural, split]
  exact isAbsent_word (.inr (digits first List.mem_cons_self))

theorem isAbsent_integer (value : Int) : (integer value).isAbsent = false := by
  rw [integer, signedDecimal]
  split
  · exact isAbsent_word (.inl rfl)
  · exact isAbsent_natural value.natAbs

/-- A value that is written is not absent. -/
theorem optional?_of_read {Value : Type} {read : Node → Option Value} {node : Node} {value : Value}
    (present : node.isAbsent = false) (isValue : read node = some value) :
    optional? read node = some (some value) := by
  rw [optional?, present, isValue]
  rfl

end Values

end Node

end RomLayout.Yaml
