import RomLayout.Description.Writer
import RomLayout.Yaml.Scalar
import RomLayout.Proofs.Numeral

set_option autoImplicit false

/-!
Scanning a written scalar gives its text back, whatever stands behind it.

In quotes every character stands for itself or is written as its code; blanks are taken
in runs, and a run without a line break is kept. A word has no quotes, so it needs a mark
behind it that ends it.
-/

namespace RomLayout.Yaml

section Quoted

section Blanks

variable {white : List Char}

theorem meetsDocumentMark_of_blanks (blanks : ∀ blank ∈ white, blank = ' ') (next : List Char) :
    meetsDocumentMark white next = false := by
  have noBreak : white.any isBreak = false := by
    rw [List.any_eq_false]
    intro blank member
    rw [blanks blank member]
    decide
  rw [meetsDocumentMark, columnAfter, noBreak]
  rfl

theorem fold_of_blanks (blanks : ∀ blank ∈ white, blank = ' ') : fold white = white := by
  have noBreaks : breaks white = [] := by
    induction white with
    | nil => rfl
    | cons character others inductionHypothesis =>
        obtain ⟨rfl, behind⟩ := List.forall_mem_cons.mp blanks
        exact inductionHypothesis behind
  rw [fold, noBreaks]

end Blanks

theorem length_ofNat_le (character : Char) :
    (Numeral.ofNat 16 character.toNat).length ≤ escapeWidth := by
  rw [Numeral.ofNat, List.length_map]
  apply Numeral.length_digits_le (by decide)
  have below : character.toNat < 0x110000 := by
    have := character.valid
    simp only [UInt32.isValidChar, Nat.isValidChar] at this
    change character.val.toNat < _
    omega
  exact Nat.lt_trans below (by decide)

theorem escape?_code (character : Char) (rest : List Char) :
    DoubleQuoted.escape? ('U' :: (List.replicate
      (escapeWidth - (Numeral.ofNat 16 character.toNat).length) '0' ++
        Numeral.ofNat 16 character.toNat ++ rest)) = some (character, rest) := by
  have width : (List.replicate (escapeWidth - (Numeral.ofNat 16 character.toNat).length) '0' ++
      Numeral.ofNat 16 character.toNat).length = 8 := by
    rw [List.length_append, List.length_replicate]
    exact Nat.sub_add_cancel (length_ofNat_le character)
  have isValid : character.toNat.isValidChar := character.valid
  have isCode : DoubleQuoted.character? character.toNat = some character := by
    rw [DoubleQuoted.character?, if_pos isValid, Char.ofNat_toNat]
  rw [DoubleQuoted.escape?, DoubleQuoted.hexadecimal?, if_neg, List.take_left' width,
    List.drop_left' width, Numeral.toNat?_padded (by decide) (by decide), Option.bind_some, isCode,
    Option.map_some]
  rw [List.length_append, width]
  omega

theorem escaped_blank : escaped ' ' = [' '] := rfl

theorem isWhite_of_isPlainAscii {character : Char} (notBlank : character ≠ ' ')
    (isPlain : isPlainAscii character) : isWhite character = false := by
  simp only [isPlainAscii, Bool.and_eq_true, decide_eq_true_eq] at isPlain
  obtain ⟨⟨⟨atLeast, atMost⟩, -⟩, -⟩ := isPlain
  simp only [isWhite, isBlank, isBreak, Bool.or_eq_false_iff, beq_eq_false_iff_ne]
  refine ⟨⟨notBlank, ?_⟩, ⟨⟨⟨⟨?_, ?_⟩, ?_⟩, ?_⟩, ?_⟩⟩ <;>
    (rintro rfl
     revert atLeast atMost
     decide)

/-- What a character other than a blank is written as does not start with white space. -/
theorem exists_escaped_cons {character : Char} (notBlank : character ≠ ' ') :
    ∃ first others, escaped character = first :: others ∧ isWhite first = false := by
  unfold escaped
  split
  · rename_i isPlain
    exact ⟨character, [], rfl, isWhite_of_isPlainAscii notBlank isPlain⟩
  · exact ⟨'\\', _, rfl, by decide⟩

theorem scan_escaped {character : Char} (notBlank : character ≠ ' ') (rest : List Char) :
    DoubleQuoted.scan (escaped character ++ rest) =
      (DoubleQuoted.scan rest).map fun (text, left) => (character :: text, left) := by
  by_cases isPlain : isPlainAscii character
  · have notWhite := isWhite_of_isPlainAscii notBlank isPlain
    simp only [isPlainAscii, Bool.and_eq_true, bne_iff_ne] at isPlain
    rw [escaped, if_pos (by simpa [isPlainAscii] using isPlain), List.singleton_append,
      DoubleQuoted.scan]
    · rw [notWhite]
      rfl
    · exact isPlain.1.2
    · exact isPlain.2
  · have read := escape?_code character rest
    rw [escaped, if_neg isPlain, List.cons_append, List.cons_append, DoubleQuoted.scan, read]
    have shorter : rest.length < (List.replicate
        (escapeWidth - (Numeral.ofNat 16 character.toNat).length) '0' ++
          Numeral.ofNat 16 character.toNat ++ rest).length + 1 := by
      rw [List.length_append]
      omega
    exact dif_pos shorter

theorem takeWhile_escaped (text rest : List Char) :
    (text.flatMap escaped ++ '"' :: rest).takeWhile isWhite = text.takeWhile (· == ' ') := by
  induction text with
  | nil => rfl
  | cons character others inductionHypothesis =>
      by_cases isBlank : character = ' '
      · subst isBlank
        rw [List.flatMap_cons, escaped_blank, List.singleton_append, List.cons_append,
          List.takeWhile_cons_of_pos (by decide), inductionHypothesis,
          List.takeWhile_cons_of_pos (by decide)]
      · obtain ⟨first, behind, split, notWhite⟩ := exists_escaped_cons isBlank
        rw [List.flatMap_cons, split, List.cons_append, List.cons_append,
          List.takeWhile_cons_of_neg (by simp [notWhite]),
          List.takeWhile_cons_of_neg (by simpa using isBlank)]

theorem dropWhile_escaped (text rest : List Char) :
    (text.flatMap escaped ++ '"' :: rest).dropWhile isWhite =
      (text.dropWhile (· == ' ')).flatMap escaped ++ '"' :: rest := by
  induction text with
  | nil => rfl
  | cons character others inductionHypothesis =>
      by_cases isBlank : character = ' '
      · subst isBlank
        rw [List.flatMap_cons, escaped_blank, List.singleton_append, List.cons_append,
          List.dropWhile_cons_of_pos (by decide), inductionHypothesis,
          List.dropWhile_cons_of_pos (by decide)]
      · obtain ⟨first, behind, split, notWhite⟩ := exists_escaped_cons isBlank
        rw [List.dropWhile_cons_of_neg (by simpa using isBlank), List.flatMap_cons, split,
          List.cons_append, List.cons_append, List.dropWhile_cons_of_neg (by simp [notWhite])]

/-- What is written in quotes is read back. -/
theorem scan_flatMap_escaped (rest : List Char) :
    (text : List Char) → DoubleQuoted.scan (text.flatMap escaped ++ '"' :: rest) = some (text, rest)
  | [] => by rw [List.flatMap_nil, List.nil_append, DoubleQuoted.scan]
  | character :: others => by
      by_cases isBlank : character = ' '
      · subst isBlank
        have blanks : ∀ blank ∈ ' ' :: others.takeWhile (· == ' '), blank = ' ' := by
          rw [List.forall_mem_cons]
          refine ⟨rfl, fun blank member => ?_⟩
          have isBlank := List.all_eq_true.mp List.all_takeWhile blank member
          exact eq_of_beq isBlank
        have kept :
            fold (' ' :: others.takeWhile (· == ' ')) = ' ' :: others.takeWhile (· == ' ') :=
          fold_of_blanks blanks
        have read := scan_flatMap_escaped rest (others.dropWhile (· == ' '))
        rw [List.flatMap_cons, escaped_blank, List.singleton_append, List.cons_append,
          DoubleQuoted.scan, if_pos (by decide)]
        dsimp only
        rw [takeWhile_escaped, dropWhile_escaped, if_neg, read, Option.map_some, kept,
          List.cons_append, List.takeWhile_append_dropWhile]
        · rw [meetsDocumentMark_of_blanks blanks]
          exact Bool.false_ne_true
        · decide
        · decide
      · rw [List.flatMap_cons, List.append_assoc, scan_escaped isBlank,
          scan_flatMap_escaped rest others, Option.map_some]
  termination_by text => text.length
  decreasing_by
    all_goals
      have := length_dropWhile_le (· == ' ') others
      simp only [List.length_cons]
      omega

end Quoted

section Words

/-- Letters and digits, with at most a minus in front. -/
inductive IsWord : List Char → Prop where
  | unsigned {first : Char} {others : List Char} :
      first.isAlphanum → (∀ character ∈ others, character.isAlphanum) → IsWord (first :: others)
  | negative {first : Char} {others : List Char} :
      first.isAlphanum → (∀ character ∈ others, character.isAlphanum) →
      IsWord ('-' :: first :: others)

/-- What ends a word between brackets. -/
inductive EndsWord : List Char → Prop where
  | mark {mark : Char} {rest : List Char} : Plain.isFlowMark mark → EndsWord (mark :: rest)
  | colon {rest : List Char} : EndsWord (':' :: ' ' :: rest)

variable {word rest : List Char} {character : Char}

theorem isWhite_of_isAlphanum (isAlphanum : character.isAlphanum) : isWhite character = false := by
  simp only [isWhite, isBlank, isBreak, Bool.or_eq_false_iff, beq_eq_false_iff_ne]
  refine ⟨⟨?_, ?_⟩, ⟨⟨⟨⟨?_, ?_⟩, ?_⟩, ?_⟩, ?_⟩⟩ <;>
    (rintro rfl
     exact absurd isAlphanum (by decide))

theorem isFlowMark_of_isAlphanum (isAlphanum : character.isAlphanum) :
    Plain.isFlowMark character = false := by
  simp only [Plain.isFlowMark, Bool.or_eq_false_iff, beq_eq_false_iff_ne]
  refine ⟨⟨⟨⟨?_, ?_⟩, ?_⟩, ?_⟩, ?_⟩ <;>
    (rintro rfl
     exact absurd isAlphanum (by decide))

theorem run_of_endsWord (ends : EndsWord rest) : Plain.run true rest = some ([], rest) := by
  cases ends with
  | mark isMark =>
      simp only [Plain.isFlowMark, Bool.or_eq_true, beq_iff_eq] at isMark
      obtain (((rfl | rfl) | rfl) | rfl) | rfl := isMark <;> rfl
  | colon => rfl

theorem run_append (isAlphanum : ∀ character ∈ word, character.isAlphanum) (ends : EndsWord rest) :
    Plain.run true (word ++ rest) = some (word, rest) := by
  induction word with
  | nil => exact run_of_endsWord ends
  | cons character others inductionHypothesis =>
      obtain ⟨isHere, behind⟩ := List.forall_mem_cons.mp isAlphanum
      have notColon : (character == ':') = false := by
        rw [beq_eq_false_iff_ne]
        rintro rfl
        exact absurd isHere (by decide)
      rw [List.cons_append, Plain.run, isWhite_of_isAlphanum isHere,
        isFlowMark_of_isAlphanum isHere, notColon, inductionHypothesis behind]
      rfl

theorem IsWord.run_eq (isWord : IsWord word) (ends : EndsWord rest) :
    Plain.run true (word ++ rest) = some (word, rest) := by
  cases isWord with
  | unsigned isHere behind => exact run_append (List.forall_mem_cons.mpr ⟨isHere, behind⟩) ends
  | negative isHere behind =>
      have read := run_append (List.forall_mem_cons.mpr ⟨isHere, behind⟩) ends
      rw [List.cons_append, Plain.run, read]
      rfl

theorem EndsWord.takeWhile_eq (ends : EndsWord rest) : rest.takeWhile isWhite = [] := by
  cases ends with
  | mark isMark =>
      simp only [Plain.isFlowMark, Bool.or_eq_true, beq_iff_eq] at isMark
      obtain (((rfl | rfl) | rfl) | rfl) | rfl := isMark <;> rfl
  | colon => rfl

theorem IsWord.scan_eq (isWord : IsWord word) (ends : EndsWord rest) (indent : Nat) :
    Plain.scan true indent (word ++ rest) = some (word, rest, false) := by
  rw [Plain.scan, isWord.run_eq ends]
  exact if_pos ends.takeWhile_eq

end Words

section Ascii

/-- The printable characters of ASCII. -/
def isAscii (character : Char) : Bool := ' ' ≤ character && character ≤ '~'

variable {character : Char}

theorem toNat_of_isAscii (ascii : isAscii character) :
    0x20 ≤ character.toNat ∧ character.toNat ≤ 0x7E := by
  simp only [isAscii, Bool.and_eq_true, decide_eq_true_eq] at ascii
  exact ascii

theorem isPrintable_of_isAscii (ascii : isAscii character) : isPrintable character := by
  have bounds := toNat_of_isAscii ascii
  simp [isPrintable, bounds]

theorem isBreak_of_isAscii (ascii : isAscii character) : isBreak character = false := by
  simp only [isBreak, Bool.or_eq_false_iff, beq_eq_false_iff_ne]
  refine ⟨⟨⟨⟨?_, ?_⟩, ?_⟩, ?_⟩, ?_⟩ <;>
    (rintro rfl
     exact absurd ascii (by decide))

theorem utf8Size_of_isAscii (ascii : isAscii character) : character.utf8Size = 1 := by
  rw [Char.utf8Size_eq_one_iff, UInt32.le_iff_toNat_le]
  exact Nat.le_trans (toNat_of_isAscii ascii).2 (by decide)

theorem isAscii_of_isAlphanum (isAlphanum : character.isAlphanum) : isAscii character := by
  unfold Char.isAlphanum Char.isAlpha Char.isUpper Char.isLower Char.isDigit at isAlphanum
  simp only [Bool.or_eq_true, Bool.and_eq_true, decide_eq_true_eq, UInt32.le_iff_toNat_le,
    ge_iff_le] at isAlphanum
  have bounds : 0x20 ≤ character.val.toNat ∧ character.val.toNat ≤ 0x7E := by
    obtain (⟨low, high⟩ | ⟨low, high⟩) | ⟨low, high⟩ := isAlphanum <;>
      exact ⟨Nat.le_trans (by decide) low, Nat.le_trans high (by decide)⟩
  simp only [isAscii, Bool.and_eq_true, decide_eq_true_eq]
  exact bounds

theorem isAscii_digitChar : ∀ digit, digit < 16 → isAscii (Numeral.digitChar digit) := by
  decide

theorem IsWord.isAscii {word : List Char} (isWord : IsWord word) :
    ∀ character ∈ word, isAscii character := by
  cases isWord with
  | unsigned isHere behind =>
      rw [List.forall_mem_cons]
      exact ⟨isAscii_of_isAlphanum isHere, fun other member =>
        isAscii_of_isAlphanum (behind other member)⟩
  | negative isHere behind =>
      rw [List.forall_mem_cons, List.forall_mem_cons]
      exact ⟨rfl, isAscii_of_isAlphanum isHere, fun other member =>
        isAscii_of_isAlphanum (behind other member)⟩

theorem isAscii_escaped (value : Char) : ∀ character ∈ escaped value, isAscii character := by
  unfold escaped
  split
  · rename_i isPlain
    simp only [isPlainAscii, Bool.and_eq_true] at isPlain
    rw [List.forall_mem_singleton, isAscii, Bool.and_eq_true]
    exact isPlain.1.1
  · dsimp only
    rw [List.forall_mem_cons, List.forall_mem_cons, List.forall_mem_append]
    refine ⟨rfl, rfl, ?_, ?_⟩
    · intro character member
      rw [List.eq_of_mem_replicate member]
      rfl
    · intro character member
      obtain ⟨digit, isDigit, rfl⟩ := List.mem_map.mp member
      exact isAscii_digitChar digit (Numeral.digit_lt_of_mem_digits (by decide) isDigit)

theorem isAscii_quoted (text : String) : ∀ character ∈ quoted text, isAscii character := by
  rw [quoted, List.forall_mem_cons, List.forall_mem_append, List.forall_mem_singleton]
  refine ⟨rfl, ?_, rfl⟩
  intro character member
  obtain ⟨value, -, isHere⟩ := List.mem_flatMap.mp member
  exact isAscii_escaped value character isHere

end Ascii

end RomLayout.Yaml
