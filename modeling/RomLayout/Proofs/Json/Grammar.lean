import RomLayout.Json.Text

set_option autoImplicit false

/-!
JSON texts, said without a reader: the tokens of a value in their order, each in one of
its spellings, with any white space in front of each token and behind the last.

The writer keeps to the grammar, as long as numbers are written as the grammar wants them.
-/

namespace RomLayout.Json

namespace TextUnit

/-- What stands between the quotes of a string that has these units. -/
inductive Spells : List TextUnit → List Char → Prop where
  | nil : Spells [] []
  | plain {value : Char} {units : List TextUnit} {body : List Char} :
      firstPlain ≤ value → value ≠ '"' → value ≠ '\\' → Spells units body →
      Spells (.character value :: units) (value :: body)
  | escape {letter value : Char} {units : List TextUnit} {body : List Char} :
      escape? letter = some value → Spells units body →
      Spells (.character value :: units) ('\\' :: letter :: body)
  | code {first second third fourth : Char} {value : Nat} {units : List TextUnit}
      {body : List Char} :
      Numeral.toNat? 16 [first, second, third, fourth] = some value → Spells units body →
      Spells (.code value :: units) ('\\' :: 'u' :: first :: second :: third :: fourth :: body)

end TextUnit

namespace Token

/-- The texts of a token. Only strings have more than one. -/
inductive Spells : Token → List Char → Prop where
  | beginArray : Spells .beginArray ['[']
  | endArray : Spells .endArray [']']
  | beginObject : Spells .beginObject ['\x7b']
  | endObject : Spells .endObject ['\x7d']
  | comma : Spells .comma [',']
  | colon : Spells .colon [':']
  | null : Spells .null "null".toList
  | boolean_true : Spells (.boolean true) "true".toList
  | boolean_false : Spells (.boolean false) "false".toList
  | number {literal : List Char} : numberEnd? literal = some [] → Spells (.number literal) literal
  | string {units : List TextUnit} {body : List Char} :
      TextUnit.Spells units body →
      Spells (.string ((TextUnit.characters? units).map String.ofList)) ('"' :: (body ++ ['"']))

/-- A text of these tokens, with white space between them. -/
inductive Spaced : List Token → List Char → Prop where
  | done {space : List Char} : (∀ character ∈ space, isSpace character) → Spaced [] space
  | token {token : Token} {tokens : List Token} {space lexeme rest : List Char} :
      (∀ character ∈ space, isSpace character) → token.Spells lexeme → Spaced tokens rest →
      Spaced (token :: tokens) (space ++ (lexeme ++ rest))

namespace Spaced

variable {token : Token} {tokens : List Token} {text : List Char}

theorem lexeme {lexeme : List Char} (spells : token.Spells lexeme) (spaced : Spaced tokens text) :
    Spaced (token :: tokens) (lexeme ++ text) :=
  .token (List.forall_mem_nil _) spells spaced

theorem space {space : List Char} (blank : ∀ character ∈ space, isSpace character)
    (spaced : Spaced tokens text) : Spaced tokens (space ++ text) := by
  cases spaced with
  | done behind => exact .done (List.forall_mem_append.mpr ⟨blank, behind⟩)
  | token behind spells others =>
      rw [← List.append_assoc]
      exact .token (List.forall_mem_append.mpr ⟨blank, behind⟩) spells others

end Spaced

end Token

/-- The text is JSON, and this is its value. -/
def Writes (json : Json) (text : String) : Prop := Token.Spaced json.tokens text.toList

mutual

/-- Whether every number is written as the grammar wants it. -/
def IsGrammatical : Json → Prop
  | null => True
  | boolean _ => True
  | number literal => numberEnd? literal = some []
  | string _ => True
  | array elements => AreGrammaticalElements elements
  | object members => AreGrammaticalMembers members

def AreGrammaticalElements : List Json → Prop
  | [] => True
  | element :: others => element.IsGrammatical ∧ AreGrammaticalElements others

def AreGrammaticalMembers : List (Option String × Json) → Prop
  | [] => True
  | (_, value) :: others => value.IsGrammatical ∧ AreGrammaticalMembers others

end

namespace TextUnit

theorem toNat?_control : ∀ code, code < firstPlain.toNat →
    Numeral.toNat? 16 ['0', '0', Nat.digitChar (code / 16), Nat.digitChar (code % 16)] =
      some code := by
  decide

theorem characters?_code {code : Nat} (control : code < firstPlain.toNat) (units : List TextUnit) :
    characters? (.code code :: units) = (characters? units).map (Char.ofNat code :: ·) := by
  have small : code < 32 := control
  have notHigh : isHighSurrogate code = false := by
    simp only [isHighSurrogate, Bool.and_eq_false_iff, decide_eq_false_iff_not]
    omega
  have notLow : isLowSurrogate code = false := by
    simp only [isLowSurrogate, Bool.and_eq_false_iff, decide_eq_false_iff_not]
    omega
  rw [characters?.eq_def]
  simp [notHigh, notLow]

/-- Whichever way a character is written, it is one unit of a string and means itself. -/
theorem spells_escaped (character : Char) :
    ∃ unit : TextUnit,
      (∀ {units body}, Spells units body → Spells (unit :: units) (escaped character ++ body)) ∧
      ∀ units, characters? (unit :: units) = (characters? units).map (character :: ·) := by
  unfold escaped
  split
  -- Seven characters have an escape of their own; every other one is a code or stays plain.
  case h_8 notQuote notBackslash _ _ _ _ _ =>
    split
    · rename_i isControl
      have control : character.toNat < firstPlain.toNat := isControl
      refine ⟨.code character.toNat, fun spells => ?_, fun units => ?_⟩
      · exact .code (toNat?_control _ control) spells
      · rw [characters?_code control, Char.ofNat_toNat]
    · rename_i plain
      refine ⟨.character character, fun spells => ?_, fun units => rfl⟩
      exact .plain (Char.not_lt.mp plain) notQuote notBackslash spells
  all_goals exact ⟨.character _, fun spells => .escape rfl spells, fun units => rfl⟩

theorem spells_flatMap_escaped (characters : List Char) :
    ∃ units : List TextUnit,
      Spells units (characters.flatMap escaped) ∧ characters? units = some characters := by
  induction characters with
  | nil => exact ⟨[], .nil, rfl⟩
  | cons character others inductionHypothesis =>
      obtain ⟨units, spells, read⟩ := inductionHypothesis
      obtain ⟨unit, spellsFirst, readFirst⟩ := spells_escaped character
      refine ⟨unit :: units, spellsFirst spells, ?_⟩
      rw [readFirst, read]
      rfl

end TextUnit

namespace Token

theorem spells_quoted (text : Option String) : (Token.string text).Spells (quoted text) := by
  cases text with
  | none =>
      have half : TextUnit.Spells [.code 0xD800] ['\\', 'u', 'd', '8', '0', '0'] :=
        .code (by decide) .nil
      have written : quoted none = '"' :: (['\\', 'u', 'd', '8', '0', '0'] ++ ['"']) := by
        change "\"\\ud800\"".toList = _
        simp
      rw [written]
      exact .string half
  | some text =>
      obtain ⟨units, spells, read⟩ := TextUnit.spells_flatMap_escaped text.toList
      have isText : (TextUnit.characters? units).map String.ofList = some text := by
        rw [read, Option.map_some, String.ofList_toList]
      have spelled := Spells.string spells
      rw [isText] at spelled
      exact spelled

theorem isSpace_newLine (level : Nat) : ∀ character ∈ newLine level, isSpace character := by
  unfold newLine
  rw [List.forall_mem_cons]
  refine ⟨rfl, ?_⟩
  intro character isBlank
  rw [List.eq_of_mem_replicate isBlank]
  rfl

section Pretty

variable {tokens : List Token} {text : List Char} {level : Nat}

theorem Spaced.member {name : Option String} (spaced : Spaced tokens text) :
    Spaced (.string name :: .colon :: tokens)
      (newLine level ++ (quoted name ++ (": ".toList ++ text))) := by
  have colon : ": ".toList = [':'] ++ [' '] := by simp
  have blank : ∀ character ∈ [' '], isSpace character :=
    List.forall_mem_singleton.mpr (by decide)
  rw [colon, List.append_assoc]
  exact .space (isSpace_newLine level)
    (.lexeme (spells_quoted name) (.lexeme .colon (.space blank spaced)))

mutual

theorem spaced_prettyAt {tokens : List Token} {text : List Char} (spaced : Spaced tokens text)
    (level : Nat) :
    (json : Json) → json.IsGrammatical →
      Spaced (json.tokens ++ tokens) (json.prettyAt level ++ text)
  | .null, _ => .lexeme .null spaced
  | .boolean true, _ => .lexeme .boolean_true spaced
  | .boolean false, _ => .lexeme .boolean_false spaced
  | .number _, follows => .lexeme (.number follows) spaced
  | .string name, _ => .lexeme (spells_quoted name) spaced
  | .array [], _ => by
      have brackets : "[]".toList = ['['] ++ [']'] := by simp
      rw [prettyAt, brackets, List.append_assoc]
      exact .lexeme .beginArray (.lexeme .endArray spaced)
  | .array (element :: others), ⟨follows, othersFollow⟩ => by
      rw [Json.tokens, prettyAt]
      simp only [List.cons_append, List.append_assoc]
      exact .lexeme .beginArray (.space (isSpace_newLine _)
        (spaced_prettyAt (spaced_prettyElements spaced level others othersFollow) (level + 1)
          element follows))
  | .object [], _ => by
      change Spaced _ (['\x7b'] ++ (['\x7d'] ++ text))
      exact .lexeme .beginObject (.lexeme .endObject spaced)
  | .object ((name, value) :: others), ⟨follows, othersFollow⟩ => by
      rw [Json.tokens, prettyAt]
      simp only [List.cons_append, List.append_assoc]
      exact .lexeme .beginObject (.member
        (spaced_prettyAt (spaced_prettyMembers spaced level others othersFollow) (level + 1) value
          follows))

theorem spaced_prettyElements {tokens : List Token} {text : List Char}
    (spaced : Spaced tokens text) (level : Nat) :
    (elements : List Json) → AreGrammaticalElements elements →
      Spaced (elementTokens elements ++ tokens) (prettyElements level elements ++ text)
  | [], _ => by
      rw [elementTokens, prettyElements, List.append_assoc]
      exact .space (isSpace_newLine level) (.lexeme .endArray spaced)
  | element :: others, ⟨follows, othersFollow⟩ => by
      rw [elementTokens, prettyElements]
      simp only [List.cons_append, List.append_assoc]
      exact .lexeme .comma (.space (isSpace_newLine _)
        (spaced_prettyAt (spaced_prettyElements spaced level others othersFollow) (level + 1)
          element follows))

theorem spaced_prettyMembers {tokens : List Token} {text : List Char}
    (spaced : Spaced tokens text) (level : Nat) :
    (members : List (Option String × Json)) → AreGrammaticalMembers members →
      Spaced (memberTokens members ++ tokens) (prettyMembers level members ++ text)
  | [], _ => by
      rw [memberTokens, prettyMembers, List.append_assoc]
      exact .space (isSpace_newLine level) (.lexeme .endObject spaced)
  | (name, value) :: others, ⟨follows, othersFollow⟩ => by
      rw [memberTokens, prettyMembers]
      simp only [List.cons_append, List.append_assoc]
      exact .lexeme .comma (.member
        (spaced_prettyAt (spaced_prettyMembers spaced level others othersFollow) (level + 1) value
          follows))

end

end Pretty

end Token

theorem writes_pretty {json : Json} (follows : json.IsGrammatical) : json.Writes json.pretty := by
  have spaced := Token.spaced_prettyAt (.done (List.forall_mem_nil _)) 0 json follows
  rw [List.append_nil, List.append_nil] at spaced
  rw [Writes, pretty, String.toList_ofList]
  exact spaced

end RomLayout.Json
