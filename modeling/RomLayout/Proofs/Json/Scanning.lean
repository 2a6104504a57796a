import Mathlib.Data.List.Chain
import RomLayout.Proofs.Json.Grammar

set_option autoImplicit false

/-!
Scanning a JSON text gives the tokens that it spells.

A token ends by itself, a number apart: only the text behind it says that no further
digit belongs to it. So every statement here is about a text with something behind it.
-/

namespace RomLayout.Json

/-- No number goes on in the text. -/
def StopsNumber (text : List Char) : Prop :=
  ∀ character ∈ text.head?,
    character.isDigit = false ∧ character ≠ '.' ∧ character ≠ 'e' ∧ character ≠ 'E'

section NumberEnd

variable {text left rest : List Char}

theorem digitsEnd?_append (stops : StopsNumber rest) (found : digitsEnd? text = some left) :
    digitsEnd? (text ++ rest) = some (left ++ rest) := by
  cases text with
  | nil => cases found
  | cons first others =>
      simp only [digitsEnd?, List.cons_append] at found ⊢
      split at found
      · rename_i isDigit
        cases found
        rw [if_pos isDigit, List.dropWhile_append]
        split
        · rename_i noneLeft
          rw [List.isEmpty_iff.mp noneLeft]
          cases rest with
          | nil => rfl
          | cons next behind => simp [(stops next rfl).1]
        · rfl
      · cases found

theorem wholeEnd?_append (stops : StopsNumber rest) (found : wholeEnd? text = some left) :
    wholeEnd? (text ++ rest) = some (left ++ rest) := by
  unfold wholeEnd? at found
  split at found
  · cases found
    rfl
  · rename_i notZero
    rw [wholeEnd?.eq_2]
    · exact digitsEnd?_append stops found
    · intro behind split
      cases text with
      | nil => cases found
      | cons first others =>
          cases split
          exact notZero others rfl

theorem fractionEnd?_append (stops : StopsNumber rest) (found : fractionEnd? text = some left) :
    fractionEnd? (text ++ rest) = some (left ++ rest) := by
  unfold fractionEnd? at found
  split at found
  · exact digitsEnd?_append stops found
  · rename_i notPoint
    cases found
    rw [fractionEnd?.eq_2]
    intro behind split
    cases text with
    | nil =>
        cases split
        exact (stops '.' rfl).2.1 rfl
    | cons first others =>
        cases split
        exact notPoint others rfl

theorem exponentEnd?_append (stops : StopsNumber rest) (found : exponentEnd? text = some left) :
    exponentEnd? (text ++ rest) = some (left ++ rest) := by
  cases text with
  | nil =>
      cases found
      cases rest with
      | nil => rfl
      | cons next behind => simp [exponentEnd?, stops next rfl]
  | cons mark others =>
      simp only [exponentEnd?, List.cons_append] at found ⊢
      split at found
      · rename_i isMark
        rw [if_pos isMark]
        split at found
        · exact digitsEnd?_append stops found
        · exact digitsEnd?_append stops found
        · rename_i notPlus notMinus
          cases others with
          | nil => cases found
          | cons first digits =>
              rw [List.cons_append]
              split
              · rename_i split
                cases split
                exact absurd rfl (notPlus _)
              · rename_i split
                cases split
                exact absurd rfl (notMinus _)
              · exact digitsEnd?_append stops found
      · rename_i notMark
        cases found
        rw [if_neg notMark]
        rfl

theorem numberEnd?_append (stops : StopsNumber rest) (found : numberEnd? text = some left) :
    numberEnd? (text ++ rest) = some (left ++ rest) := by
  have unsignedEnd : ∀ unsigned : List Char,
      ((wholeEnd? unsigned).bind fractionEnd?).bind exponentEnd? = some left →
      ((wholeEnd? (unsigned ++ rest)).bind fractionEnd?).bind exponentEnd? =
        some (left ++ rest) := by
    intro unsigned found
    simp only [Option.bind_eq_some_iff] at found
    obtain ⟨power, ⟨fraction, whole, point⟩, exponent⟩ := found
    rw [wholeEnd?_append stops whole, Option.bind_some, fractionEnd?_append stops point,
      Option.bind_some, exponentEnd?_append stops exponent]
  unfold numberEnd? at found
  dsimp only at found
  split at found
  · exact unsignedEnd _ found
  · rename_i notMinus
    cases text with
    | nil => cases found
    | cons first others =>
        unfold numberEnd?
        dsimp only
        split
        · rename_i split
          cases split
          exact absurd rfl (notMinus _)
        · exact unsignedEnd _ found

/-- A number starts with a digit or a minus. -/
theorem numberEnd?_head {first : Char} {others : List Char}
    (found : numberEnd? (first :: others) = some left) : first = '-' ∨ first.isDigit := by
  unfold numberEnd? at found
  dsimp only at found
  split at found
  · rename_i split
    cases split
    exact .inl rfl
  · right
    simp only [Option.bind_eq_some_iff] at found
    obtain ⟨_, ⟨_, whole, _⟩, _⟩ := found
    unfold wholeEnd? at whole
    split at whole
    · rename_i split
      cases split
      rfl
    · unfold digitsEnd? at whole
      dsimp only at whole
      split at whole
      · assumption
      · cases whole

end NumberEnd

namespace TextUnit

theorem scan_code {first second third fourth : Char} {code : Nat}
    (hexadecimal : Numeral.toNat? 16 [first, second, third, fourth] = some code)
    (text : List Char) :
    scan ('\\' :: 'u' :: first :: second :: third :: fourth :: text) =
      (scan text).map fun (units, left) => (.code code :: units, left) := by
  rw [scan, hexadecimal]

theorem scan_escape {letter value : Char} (known : escape? letter = some value)
    (text : List Char) :
    scan ('\\' :: letter :: text) =
      (scan text).map fun (units, left) => (.character value :: units, left) := by
  unfold escape? at known
  split at known <;> cases known <;> rfl

theorem Spells.scan_eq {units : List TextUnit} {body : List Char} (spells : Spells units body)
    (rest : List Char) : scan (body ++ '"' :: rest) = some (units, rest) := by
  induction spells with
  | nil => rfl
  | @plain value units body atLeast notQuote notBackslash _ inductionHypothesis =>
      rw [List.cons_append, scan.eq_5, if_neg (Char.not_lt.mpr atLeast), inductionHypothesis]
      · rfl
      · exact notQuote
      · rintro _ _ _ _ _ isBackslash -
        exact notBackslash isBackslash
      · rintro _ _ isBackslash -
        exact notBackslash isBackslash
  | escape known _ inductionHypothesis =>
      rw [List.cons_append, List.cons_append, scan_escape known, inductionHypothesis]
      rfl
  | code hexadecimal _ inductionHypothesis =>
      simp only [List.cons_append]
      rw [scan_code hexadecimal, inductionHypothesis]
      rfl

end TextUnit

namespace Token

variable {rest : List Char}

theorem isSpace_of_numberHead {first : Char} (head : first = '-' ∨ first.isDigit) :
    isSpace first = false := by
  simp only [isSpace, Bool.or_eq_false_iff, beq_eq_false_iff_ne]
  refine ⟨⟨⟨?_, ?_⟩, ?_⟩, ?_⟩ <;>
    (rintro rfl
     exact absurd head (by decide))

theorem first?_of_numberHead {first : Char} {text : List Char}
    (head : first = '-' ∨ first.isDigit) :
    first? (first :: text) = (numberEnd? (first :: text)).map fun left =>
      (.number ((first :: text).take ((first :: text).length - left.length)), left) := by
  unfold first?
  split
  case h_11 => rfl
  -- Every other token starts with a character that starts no number.
  all_goals
    rename_i sameText
    obtain ⟨rfl, -⟩ := List.cons.inj sameText
    exact absurd head (by decide)

theorem first?_number {first : Char} {others : List Char}
    (follows : numberEnd? (first :: others) = some []) (stops : StopsNumber rest) :
    first? (first :: (others ++ rest)) = some (.number (first :: others), rest) := by
  have noneLeft : numberEnd? (first :: (others ++ rest)) = some rest :=
    numberEnd?_append stops follows
  have count : (first :: (others ++ rest)).length - rest.length = (first :: others).length := by
    rw [List.length_cons, List.length_append, List.length_cons]
    omega
  rw [first?_of_numberHead (numberEnd?_head follows), noneLeft, Option.map_some, count,
    ← List.cons_append, List.take_left]

theorem scan_of_first? {text left : List Char} {token : Token} {character : Char}
    (found : first? (character :: text) = some (token, left))
    (notSpace : isSpace character = false) (shorter : left.length ≤ text.length) :
    scan (character :: text) = (scan left).map (token :: ·) := by
  have isShorter : left.length < (character :: text).length := Nat.lt_succ_of_le shorter
  rw [scan, notSpace, found]
  exact dif_pos isShorter

theorem scan_space {character : Char} (isSpace : isSpace character) :
    scan (character :: rest) = scan rest := by
  rw [scan, if_pos isSpace]

def isNumber : Token → Bool
  | .number _ => true
  | _ => false

/-- The tokens that can follow a value inside brackets. -/
def isClosing (token : Token) : Bool :=
  token == .comma || token == .endArray || token == .endObject

/-- No number stands in front of a token that could be taken for more of it. -/
def Separated (tokens : List Token) : Prop :=
  List.IsChain (fun token next => token.isNumber → next.isClosing) tokens

section Separated

variable {rest : List Token}

theorem Separated.cons {token : Token} (isOther : token.isNumber = false)
    (separated : Separated rest) : Separated (token :: rest) := by
  apply List.isChain_cons.mpr
  refine ⟨?_, separated⟩
  intro next _ isNumber
  rw [isOther] at isNumber
  cases isNumber

theorem Separated.value {token : Token} (closes : ∀ next ∈ rest.head?, next.isClosing)
    (separated : Separated rest) : Separated (token :: rest) :=
  List.isChain_cons.mpr ⟨fun next isNext _ => closes next isNext, separated⟩

theorem isClosing_elementTokens (elements : List Json) :
    ∀ next ∈ (elementTokens elements ++ rest).head?, next.isClosing := by
  cases elements <;> (rintro _ ⟨⟩; rfl)

theorem isClosing_memberTokens (members : List (Option String × Json)) :
    ∀ next ∈ (memberTokens members ++ rest).head?, next.isClosing := by
  cases members <;> (rintro _ ⟨⟩; rfl)

mutual

theorem separated_tokens {rest : List Token} (separated : Separated rest)
    (closes : ∀ next ∈ rest.head?, next.isClosing) : (json : Json) → Separated (json.tokens ++ rest)
  | .null | .boolean _ | .number _ | .string _ => .value closes separated
  | .array [] => .cons rfl (.cons rfl separated)
  | .array (element :: others) => by
      rw [tokens, List.cons_append, List.append_assoc]
      exact .cons rfl (separated_tokens (separated_elementTokens separated others)
        (isClosing_elementTokens others) element)
  | .object [] => .cons rfl (.cons rfl separated)
  | .object ((name, value) :: others) => by
      rw [tokens, List.cons_append, List.cons_append, List.cons_append, List.append_assoc]
      exact .cons rfl (.cons rfl (.cons rfl (separated_tokens
        (separated_memberTokens separated others) (isClosing_memberTokens others) value)))

theorem separated_elementTokens {rest : List Token} (separated : Separated rest) :
    (elements : List Json) → Separated (elementTokens elements ++ rest)
  | [] => .cons rfl separated
  | element :: others => by
      rw [elementTokens, List.cons_append, List.append_assoc]
      exact .cons rfl (separated_tokens (separated_elementTokens separated others)
        (isClosing_elementTokens others) element)

theorem separated_memberTokens {rest : List Token} (separated : Separated rest) :
    (members : List (Option String × Json)) → Separated (memberTokens members ++ rest)
  | [] => .cons rfl separated
  | (name, value) :: others => by
      rw [memberTokens, List.cons_append, List.cons_append, List.cons_append, List.append_assoc]
      exact .cons rfl (.cons rfl (.cons rfl (separated_tokens
        (separated_memberTokens separated others) (isClosing_memberTokens others) value)))

end

end Separated

section Scan

variable {token : Token} {tokens : List Token} {lexeme rest : List Char}

theorem scan_blank {space : List Char} (blank : ∀ character ∈ space, isSpace character) :
    scan (space ++ rest) = scan rest := by
  induction space with
  | nil => rfl
  | cons character others inductionHypothesis =>
      obtain ⟨isSpace, behind⟩ := List.forall_mem_cons.mp blank
      rw [List.cons_append, scan_space isSpace, inductionHypothesis behind]

theorem scan_append_of_first? {character : Char} {text : List Char}
    (found : first? (character :: (text ++ rest)) = some (token, rest))
    (notSpace : isSpace character = false) :
    scan ((character :: text) ++ rest) = (scan rest).map (token :: ·) := by
  apply scan_of_first? found notSpace
  rw [List.length_append]
  exact Nat.le_add_left _ _

theorem Spells.scan_append (spells : token.Spells lexeme)
    (stops : token.isNumber → StopsNumber rest) :
    scan (lexeme ++ rest) = (scan rest).map (token :: ·) := by
  cases spells with
  | beginArray | endArray | beginObject | endObject | comma | colon =>
      exact scan_append_of_first? rfl rfl
  | null =>
      have text : "null".toList = ['n', 'u', 'l', 'l'] := by simp
      rw [text]
      exact scan_append_of_first? rfl rfl
  | boolean_true =>
      have text : "true".toList = ['t', 'r', 'u', 'e'] := by simp
      rw [text]
      exact scan_append_of_first? rfl rfl
  | boolean_false =>
      have text : "false".toList = ['f', 'a', 'l', 's', 'e'] := by simp
      rw [text]
      exact scan_append_of_first? rfl rfl
  | number follows =>
      cases lexeme with
      | nil => cases follows
      | cons first others =>
          exact scan_append_of_first? (first?_number follows (stops rfl))
            (isSpace_of_numberHead (numberEnd?_head follows))
  | @string units body spells =>
      apply scan_append_of_first? _ rfl
      rw [List.append_assoc, List.singleton_append, first?, spells.scan_eq, Option.map_some]

/-- A number ends in front of white space and in front of a token that can follow it. -/
theorem Spaced.stopsNumber {text : List Char} (spaced : Spaced tokens text)
    (closes : ∀ next ∈ tokens.head?, next.isClosing) : StopsNumber text := by
  have ofSpace : ∀ {space behind : List Char} {character : Char},
      (∀ character ∈ space, isSpace character) → character ∈ (space ++ behind).head? →
      isSpace character ∨ character ∈ behind.head? := by
    intro space behind character blank isHead
    cases space with
    | nil => exact .inr isHead
    | cons head others =>
        cases isHead
        exact .inl (blank _ List.mem_cons_self)
  have ofBlank : ∀ character, isSpace character →
      character.isDigit = false ∧ character ≠ '.' ∧ character ≠ 'e' ∧ character ≠ 'E' := by
    intro character blank
    simp only [isSpace, Bool.or_eq_true, beq_iff_eq] at blank
    obtain ((rfl | rfl) | rfl) | rfl := blank <;> decide
  intro character isHead
  cases spaced with
  | done blank =>
      rw [← List.append_nil text] at isHead
      obtain isBlank | impossible := ofSpace blank isHead
      · exact ofBlank character isBlank
      · cases impossible
  | token blank spells _ =>
      obtain isBlank | isFirst := ofSpace blank isHead
      · exact ofBlank character isBlank
      · have closing := closes _ rfl
        cases spells with
        | comma | endArray | endObject =>
            cases isFirst
            decide
        | beginArray | beginObject | colon | null | boolean_true | boolean_false | number
        | string => cases closing

theorem Spaced.scan_eq {text : List Char} (spaced : Spaced tokens text)
    (separated : Separated tokens) : scan text = some tokens := by
  induction spaced with
  | @done space blank =>
      rw [← List.append_nil space, scan_blank blank, scan]
  | @token token tokens space lexeme rest blank spells spaced inductionHypothesis =>
      obtain ⟨follows, behind⟩ := List.isChain_cons.mp separated
      have stops : token.isNumber → StopsNumber rest := fun isNumber =>
        spaced.stopsNumber fun next isNext => follows next isNext isNumber
      rw [scan_blank blank, spells.scan_append stops, inductionHypothesis behind, Option.map_some]

end Scan

end Token

end RomLayout.Json
