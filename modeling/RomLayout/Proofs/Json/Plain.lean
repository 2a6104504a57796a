import Mathlib.Data.List.Basic
import Mathlib.Data.List.TakeWhile
import RomLayout.Json.Fields
import RomLayout.Proofs.Json.Scanning
import RomLayout.Proofs.Numeral

set_option autoImplicit false

/-!
Plain JSON values: those that come back from their text and that reading does not refuse.

Numbers are where a value can fail to be plain. A natural number is written as its digits,
which follow the grammar, and none of them is lost as far as a word reaches.
-/

namespace RomLayout

theorem mapM_map_eq_map {Value Written Result : Type} {write : Value → Written}
    {read : Written → Option Result} {result : Value → Result} {values : List Value}
    (reads : ∀ value ∈ values, read (write value) = some (result value)) :
    (values.map write).mapM read = some (values.map result) := by
  induction values with
  | nil => rfl
  | cons value others inductionHypothesis =>
      obtain ⟨isHere, behind⟩ := List.forall_mem_cons.mp reads
      rw [List.map_cons, List.mapM_cons, isHere, inductionHypothesis behind]
      rfl

theorem mapM_map_eq_some {Value Written : Type} {write : Value → Written}
    {read : Written → Option Value} (inverse : ∀ value, read (write value) = some value)
    (values : List Value) : (values.map write).mapM read = some values := by
  have mapped := mapM_map_eq_map fun value (_ : value ∈ values) => inverse value
  rwa [List.map_id'] at mapped

namespace Json

/-- A natural number is a run of digits without a zero in front. -/
theorem numberEnd?_ofNat (value : Nat) : numberEnd? (Numeral.ofNat 10 value) = some [] := by
  rcases Nat.eq_zero_or_pos value with rfl | positive
  · rw [Numeral.ofNat, Numeral.digits]
    rfl
  · obtain ⟨digit, rest, split, below, notZero⟩ :=
      @Numeral.exists_digits_cons 10 value (by decide) (by decide) positive
    have isDigit : (Numeral.digitChar digit).isDigit := Numeral.isDigit_digitChar digit below
    have noneLeft : (rest.map Numeral.digitChar).dropWhile Char.isDigit = [] := by
      rw [List.dropWhile_eq_nil_iff]
      intro character member
      apply @Numeral.isDigit_of_mem_ofNat value
      rw [Numeral.ofNat, split]
      exact List.mem_cons_of_mem _ member
    have unsigned : numberEnd? (Numeral.digitChar digit :: rest.map Numeral.digitChar) =
        ((wholeEnd? (Numeral.digitChar digit :: rest.map Numeral.digitChar)).bind
          fractionEnd?).bind exponentEnd? := by
      unfold numberEnd?
      dsimp only
      split
      · rename_i minus
        rw [(List.cons.inj minus).1] at isDigit
        cases isDigit
      · rfl
    rw [Numeral.ofNat, split, List.map_cons, unsigned, wholeEnd?.eq_2, digitsEnd?, if_pos isDigit,
      noneLeft]
    · rfl
    · intro _ zero
      exact notZero (List.cons.inj zero).1

namespace Number

theorem digitsIn_ofNat (value : Nat) :
    digitsIn (Numeral.ofNat 10 value) = Numeral.digits 10 value := by
  rw [digitsIn, Numeral.ofNat, List.filterMap_map]
  have read : ∀ digit ∈ Numeral.digits 10 value,
      (Numeral.digit? 10 ∘ Numeral.digitChar) digit = some digit := fun digit member =>
    Numeral.digit?_digitChar (by decide) (Numeral.digit_lt_of_mem_digits (by decide) member)
  rw [List.filterMap_congr read, List.filterMap_some]

theorem ofLiteral_ofNat (value : Nat) :
    ofLiteral (Numeral.ofNat 10 value) = ⟨Numeral.digits 10 value, [], 0⟩ := by
  have noMark : ∀ character ∈ Numeral.ofNat 10 value, !isExponentMark character := by
    intro character member
    have isDigit := Numeral.isDigit_of_mem_ofNat member
    simp only [isExponentMark, Bool.not_eq_true', Bool.or_eq_false_iff, beq_eq_false_iff_ne]
    constructor <;>
      (rintro rfl
       exact absurd isDigit (by decide))
  have noPoint : ∀ character ∈ Numeral.ofNat 10 value, character != '.' := by
    intro character member
    have isDigit := Numeral.isDigit_of_mem_ofNat member
    rw [bne_iff_ne]
    rintro rfl
    exact absurd isDigit (by decide)
  rw [ofLiteral, List.takeWhile_eq_self_iff.mpr noMark, List.dropWhile_eq_nil_iff.mpr noMark,
    List.takeWhile_eq_self_iff.mpr noPoint, List.dropWhile_eq_nil_iff.mpr noPoint, digitsIn_ofNat]
  rfl

/-- No digit is lost of a number that fits into a word. -/
theorem appendDigits_snd {start : Nat} {digits : List Nat}
    (fits : digits.foldl (fun value digit => value * 10 + digit) start < UInt64.size) :
    (appendDigits start digits).2 = [] := by
  have atLeast : ∀ (digits : List Nat) (start : Nat),
      start ≤ digits.foldl (fun value digit => value * 10 + digit) start := by
    intro digits
    induction digits with
    | nil => exact Nat.le_refl
    | cons digit rest inductionHypothesis =>
        intro start
        have := inductionHypothesis (start * 10 + digit)
        rw [List.foldl_cons]
        omega
  induction digits generalizing start with
  | nil => rfl
  | cons digit rest inductionHypothesis =>
      rw [List.foldl_cons] at fits
      rw [appendDigits, if_pos (Nat.lt_of_le_of_lt (atLeast rest _) fits)]
      exact inductionHypothesis fits

end Number

theorem isReadable_number {value : Nat} (fits : value < UInt64.size) :
    (number (Numeral.ofNat 10 value)).isReadable := by
  have nothingLost : (Number.appendDigits 0 (Numeral.digits 10 value)).2 = [] := by
    apply Number.appendDigits_snd
    rwa [← Numeral.value, Numeral.value_digits]
  have exponent : (Number.ofLiteral (Numeral.ofNat 10 value)).scientific.exponent = 0 := by
    rw [Number.ofLiteral_ofNat]
    simp [Number.scientific, nothingLost, Number.appendDigits]
  rw [isReadable, Scientific.isFinite, if_pos (.inr (Int.le_of_eq exponent))]

/-- A value that can be written and read: its numbers follow the grammar and are finite,
its strings are proper, and no more than `depth` brackets stand inside each other. -/
structure Plain (depth : Nat) (json : Json) : Prop where
  nesting : json.nesting ≤ depth
  readable : json.isReadable
  grammatical : json.IsGrammatical

namespace Plain

variable {depth : Nat}

theorem natural {value : Nat} (fits : value < UInt64.size) :
    Plain depth (.number (Numeral.ofNat 10 value)) :=
  ⟨Nat.zero_le _, isReadable_number fits, numberEnd?_ofNat value⟩

theorem array {elements : List Json} (each : ∀ element ∈ elements, Plain depth element) :
    Plain (depth + 1) (.array elements) := by
  have all : nestingOfElements elements ≤ depth ∧ areReadableElements elements ∧
      AreGrammaticalElements elements := by
    induction elements with
    | nil => exact ⟨Nat.zero_le _, rfl, trivial⟩
    | cons element others inductionHypothesis =>
        obtain ⟨first, behind⟩ := List.forall_mem_cons.mp each
        obtain ⟨nesting, readable, grammatical⟩ := inductionHypothesis behind
        exact ⟨Nat.max_le.mpr ⟨first.nesting, nesting⟩,
          Bool.and_eq_true_iff.mpr ⟨first.readable, readable⟩, first.grammatical, grammatical⟩
  exact ⟨Nat.succ_le_succ all.1, all.2.1, all.2.2⟩

theorem object {members : List (Option String × Json)}
    (each : ∀ member ∈ members, member.1.isSome ∧ Plain depth member.2) :
    Plain (depth + 1) (.object members) := by
  have all : nestingOfMembers members ≤ depth ∧ areReadableMembers members ∧
      AreGrammaticalMembers members := by
    induction members with
    | nil => exact ⟨Nat.zero_le _, rfl, trivial⟩
    | cons member others inductionHypothesis =>
        obtain ⟨⟨named, first⟩, behind⟩ := List.forall_mem_cons.mp each
        obtain ⟨nesting, readable, grammatical⟩ := inductionHypothesis behind
        refine ⟨Nat.max_le.mpr ⟨first.nesting, nesting⟩, ?_, first.grammatical, grammatical⟩
        rw [areReadableMembers, named, first.readable, readable]
        rfl
  exact ⟨Nat.succ_le_succ all.1, all.2.1, all.2.2⟩

end Plain

end Json
end RomLayout
