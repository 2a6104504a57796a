import RomLayout.Yaml.Token
import RomLayout.Proofs.Yaml.Scalars

set_option autoImplicit false

/-!
Scanning what is written in brackets on one line.

Between brackets no indentation counts, so all that a scanner carries along are possible
keys, none of which has to become one. What a scanner makes of a piece of text is said by
the scanner that it becomes behind it, whatever stands there.
-/

namespace RomLayout.Yaml

/-- How a scalar is written: as a word or in quotes. -/
inductive Lexeme : String → Bool → List Char → Prop where
  | word {word : List Char} : IsWord word → Lexeme (String.ofList word) true word
  | quoted (text : String) : Lexeme text false (quoted text)

theorem Lexeme.exists_cons {text : String} {isPlain : Bool} {written : List Char}
    (lexeme : Lexeme text isPlain written) :
    ∃ first others, written = first :: others ∧ isWhite first = false ∧ first ≠ '#' := by
  cases lexeme with
  | word isWord =>
      cases isWord with
      | unsigned isAlphanum =>
          refine ⟨_, _, rfl, isWhite_of_isAlphanum isAlphanum, ?_⟩
          rintro rfl
          exact absurd isAlphanum (by decide)
      | negative => exact ⟨_, _, rfl, by decide, by decide⟩
  | quoted => exact ⟨_, _, rfl, by decide, by decide⟩

theorem Lexeme.isAscii {text : String} {isPlain : Bool} {written : List Char}
    (lexeme : Lexeme text isPlain written) : ∀ character ∈ written, isAscii character := by
  cases lexeme with
  | word isWord => exact isWord.isAscii
  | quoted => exact isAscii_quoted text

namespace Position

/-- Behind printable characters of ASCII the line is the same, and each is one byte. -/
theorem skip_of_isAscii {written : List Char} (ascii : ∀ character ∈ written, isAscii character)
    (rest : List Char) (position : Position) :
    (position.skip written.length (written ++ rest)).line = position.line ∧
      (position.skip written.length (written ++ rest)).index =
        position.index + written.length := by
  induction written generalizing position with
  | nil => exact ⟨rfl, rfl⟩
  | cons character others inductionHypothesis =>
      obtain ⟨isHere, behind⟩ := List.forall_mem_cons.mp ascii
      rw [List.cons_append, List.length_cons, skip, isBreak_of_isAscii isHere,
        utf8Size_of_isAscii isHere]
      obtain ⟨sameLine, distance⟩ := inductionHypothesis behind
        ⟨position.index + 1, position.line, position.column + 1⟩
      refine ⟨sameLine, distance.trans ?_⟩
      dsimp only
      omega

end Position

/-- The two kinds of brackets. -/
inductive Bracket where
  | square
  | curly

namespace Bracket

def opening : Bracket → Char
  | square => '['
  | curly => '\x7b'

def closing : Bracket → Char
  | square => ']'
  | curly => '\x7d'

def start : Bracket → Token
  | square => .flowSequenceStart
  | curly => .flowMappingStart

def stop : Bracket → Token
  | square => .flowSequenceEnd
  | curly => .flowMappingEnd

theorem isWhite_opening (bracket : Bracket) :
    isWhite bracket.opening = false ∧ bracket.opening ≠ '#' := by
  cases bracket <;> decide

theorem isWhite_closing (bracket : Bracket) :
    isWhite bracket.closing = false ∧ bracket.closing ≠ '#' := by
  cases bracket <;> decide

theorem endsWord_closing (bracket : Bracket) (rest : List Char) :
    EndsWord (bracket.closing :: rest) := by
  cases bracket <;> exact .mark rfl

end Bracket

namespace Scanner

/-- The possible key need not become one. -/
def IsLoose (possibleKey : Option PossibleKey) : Prop :=
  ∀ key ∈ possibleKey, key.isRequired = false

theorem isLoose_none : IsLoose none := by
  rintro _ ⟨⟩

/-- A scanner behind so many open brackets, outside of all block collections. -/
structure Ready (scanner : Scanner) (depth : Nat) : Prop where
  indents : scanner.indents = []
  possibleKey : IsLoose scanner.possibleKey
  outerKeys : ∀ key ∈ scanner.outerKeys, IsLoose key
  depth : scanner.outerKeys.length = depth

/-- A character that starts a token wherever blanks may stand in front of it. -/
def StartsToken (character : Char) : Prop := isWhite character = false ∧ character ≠ '#'

section Advance

variable {scanner : Scanner} {depth : Nat} {blanks rest : List Char} {first : Char}

theorem exists_forgetStale {possibleKey : Option PossibleKey} (loose : IsLoose possibleKey)
    (position : Position) :
    ∃ kept, forgetStale position possibleKey = some kept ∧ IsLoose kept := by
  cases possibleKey with
  | none => exact ⟨none, rfl, isLoose_none⟩
  | some key =>
      rw [forgetStale, loose key rfl]
      split
      · exact ⟨none, rfl, isLoose_none⟩
      · exact ⟨some key, rfl, loose⟩

theorem exists_mapM_forgetStale {keys : List (Option PossibleKey)}
    (loose : ∀ key ∈ keys, IsLoose key) (position : Position) :
    ∃ kept, keys.mapM (forgetStale position) = some kept ∧ (∀ key ∈ kept, IsLoose key) ∧
      kept.length = keys.length := by
  induction keys with
  | nil => exact ⟨[], rfl, List.forall_mem_nil _, rfl⟩
  | cons key others inductionHypothesis =>
      obtain ⟨isHere, behind⟩ := List.forall_mem_cons.mp loose
      obtain ⟨first, forgotten, looseFirst⟩ := exists_forgetStale isHere position
      obtain ⟨kept, mapped, looseKept, sameLength⟩ := inductionHypothesis behind
      refine ⟨first :: kept, ?_, List.forall_mem_cons.mpr ⟨looseFirst, looseKept⟩, ?_⟩
      · rw [List.mapM_cons, forgotten, mapped]
        rfl
      · rw [List.length_cons, List.length_cons, sameLength]

theorem skipWhite_blanks (inFlow allowsKey : Bool) (blank : ∀ character ∈ blanks, character = ' ')
    (starts : StartsToken first) :
    skipWhite inFlow false allowsKey (blanks ++ first :: rest) = (first :: rest, allowsKey) := by
  induction blanks with
  | nil =>
      obtain ⟨notWhite, notComment⟩ := starts
      simp only [isWhite, isBlank, Bool.or_eq_false_iff] at notWhite
      simp [skipWhite, notWhite, notComment]
  | cons character others inductionHypothesis =>
      obtain ⟨rfl, behind⟩ := List.forall_mem_cons.mp blank
      exact inductionHypothesis behind

/-- In front of its next token a scanner is as ready as before. -/
structure Advances (scanner current : Scanner) (depth : Nat) (text : List Char) : Prop where
  advance : scanner.advance = some current
  ready : Ready current depth
  rest : current.rest = text
  length_le : text.length ≤ scanner.rest.length
  tokens : current.tokens = scanner.tokens
  allowsKey : current.allowsKey = scanner.allowsKey
  position : current.position =
    scanner.position.skip (scanner.rest.length - text.length) scanner.rest
  possibleKey : forgetStale current.position scanner.possibleKey = some current.possibleKey

theorem Ready.exists_advances (ready : Ready scanner depth)
    (blank : ∀ character ∈ blanks, character = ' ') (starts : StartsToken first)
    (here : scanner.rest = blanks ++ first :: rest) :
    ∃ current, Advances scanner current depth (first :: rest) := by
  obtain ⟨indents, loose, looseOuter, sameDepth⟩ := ready
  let position := scanner.position.skip (scanner.rest.length - (first :: rest).length) scanner.rest
  obtain ⟨possibleKey, forgotten, looseKept⟩ := exists_forgetStale loose position
  obtain ⟨outerKeys, mapped, looseOuterKept, sameLength⟩ :=
    exists_mapM_forgetStale looseOuter position
  refine ⟨{ scanner with rest := first :: rest, position, possibleKey, outerKeys },
    ?_, ⟨indents, looseKept, looseOuterKept, sameLength.trans sameDepth⟩, rfl, ?_, rfl, rfl, rfl,
    forgotten⟩
  case refine_2 =>
    rw [here, List.length_append]
    exact Nat.le_add_left _ _
  have skipped : skipWhite scanner.inFlow false scanner.allowsKey scanner.rest =
      (first :: rest, scanner.allowsKey) := by
    rw [here]
    exact skipWhite_blanks _ _ blank starts
  unfold advance
  rw [skipped]
  simp only [moveTo, Option.bind_eq_bind]
  rw [forgotten, Option.bind_some, mapped, Option.bind_some]
  simp only [indents, closeBlocks, ite_self]
  rfl

end Advance

section Tokens

variable {scanner current : Scanner} {depth : Nat} {rest : List Char}

theorem Ready.forgetKey_eq (ready : Ready current depth) :
    current.forgetKey = some { current with possibleKey := none } := by
  have notRequired : current.possibleKey.any (·.isRequired) = false := by
    cases isKey : current.possibleKey with
    | none => rfl
    | some key => exact ready.possibleKey key isKey
  rw [forgetKey, notRequired]
  rfl

/-- Where a key may start, the place is noted. -/
theorem Ready.exists_noteKey (ready : Ready current depth) :
    ∃ possibleKey, current.noteKey = some { current with possibleKey } ∧ IsLoose possibleKey ∧
      (current.allowsKey →
        possibleKey = some ⟨current.position, current.tokens.length, false⟩) := by
  by_cases allowed : current.allowsKey
  · have notRequired : (!current.inFlow && current.indents.head? == some current.position.column) =
        false := by
      rw [ready.indents]
      exact Bool.and_false _
    refine ⟨some ⟨current.position, current.tokens.length, false⟩, ?_, ?_, fun _ => rfl⟩
    · rw [noteKey, if_pos allowed, ready.forgetKey_eq, Option.map_some]
      exact congrArg (fun isRequired => some { current with
        possibleKey := some ⟨current.position, current.tokens.length, isRequired⟩ }) notRequired
    · rintro _ ⟨⟩
      rfl
  · refine ⟨current.possibleKey, ?_, ready.possibleKey, fun isAllowed => absurd isAllowed allowed⟩
    rw [noteKey, if_neg allowed]

theorem readToken_opening {bracket : Bracket} (here : current.rest = bracket.opening :: rest) :
    current.readToken = current.openBracket bracket.start := by
  cases bracket <;> simp [readToken, here, Bracket.opening, Bracket.start, isDocumentMark]

theorem readToken_closing {bracket : Bracket} (here : current.rest = bracket.closing :: rest) :
    current.readToken = current.closeBracket bracket.stop := by
  cases bracket <;> simp [readToken, here, Bracket.closing, Bracket.stop, isDocumentMark]

theorem readToken_comma (here : current.rest = ',' :: rest) :
    current.readToken = current.flowEntry := by
  simp [readToken, here, isDocumentMark]

theorem readToken_colon (inFlow : current.inFlow) (here : current.rest = ':' :: rest) :
    current.readToken = current.valueMark := by
  simp [readToken, here, isDocumentMark, inFlow]

theorem readToken_quote (here : current.rest = '"' :: rest) :
    current.readToken = current.quoted DoubleQuoted.scan := by
  simp [readToken, here, isDocumentMark]

theorem startsPlain_of_isAlphanum {character : Char} (isAlphanum : character.isAlphanum) :
    startsPlain character := by
  have bound := (toNat_of_isAscii (isAscii_of_isAlphanum isAlphanum)).2
  rw [← Char.ofNat_toNat character] at isAlphanum ⊢
  have checked : ∀ code, code ≤ 0x7E → (Char.ofNat code).isAlphanum →
      startsPlain (Char.ofNat code) := by decide
  exact checked character.toNat bound isAlphanum

theorem isDocumentMark_of_isAlphanum {character : Char} (isAlphanum : character.isAlphanum)
    (text : List Char) :
    isDocumentMark (character :: text) = false ∧
      isDocumentMark ('-' :: character :: text) = false := by
  constructor <;>
    (unfold isDocumentMark
     split
     case h_3 => rfl
     all_goals
       rename_i sameText
       simp only [List.cons.injEq] at sameText
       obtain ⟨_, _, _⟩ := sameText
       subst_vars
       exact absurd isAlphanum (by decide))

theorem readToken_word {word : List Char} (isWord : IsWord word)
    (here : current.rest = word ++ rest) : current.readToken = current.plain := by
  cases isWord with
  | @unsigned first others isAlphanum _ =>
      rw [readToken, here, List.cons_append, (isDocumentMark_of_isAlphanum isAlphanum _).1,
        Bool.and_false, if_neg Bool.false_ne_true]
      split
      case h_1 sameText => cases sameText
      case h_12 sameText =>
        cases sameText
        exact if_pos (startsPlain_of_isAlphanum isAlphanum)
      -- Every other token starts with a character that is no letter and no digit.
      all_goals
        rename_i sameText
        obtain ⟨rfl, -⟩ := List.cons.inj sameText
        exact absurd isAlphanum (by decide)
  | @negative first others isAlphanum _ =>
      rw [readToken, here, List.cons_append, List.cons_append,
        (isDocumentMark_of_isAlphanum isAlphanum _).2, Bool.and_false, if_neg Bool.false_ne_true]
      have noBlank : endsWord (first :: (others ++ rest)) = false :=
        isWhite_of_isAlphanum isAlphanum
      exact if_neg (noBlank ▸ Bool.false_ne_true)

theorem readToken_lexeme {value : String} {isPlain : Bool} {written : List Char}
    {possibleKey : Option PossibleKey} (lexeme : Lexeme value isPlain written)
    (ends : EndsWord rest) (inFlow : current.inFlow) (here : current.rest = written ++ rest)
    (noted : current.noteKey = some { current with possibleKey }) :
    current.readToken = some
      { ({ current with possibleKey }.moveTo rest).emit (.scalar value isPlain) with
        allowsKey := false } := by
  cases lexeme with
  | word isWord =>
      have scanned : Plain.scan current.inFlow current.plainIndent current.rest =
          some (written, rest, false) := by
        rw [inFlow, here]
        exact isWord.scan_eq ends _
      rw [readToken_word isWord here, plain, noted]
      simp only [Option.bind_eq_bind, Option.bind_some]
      change (Plain.scan current.inFlow current.plainIndent current.rest).bind _ = _
      rw [scanned]
      rfl
  | quoted =>
      have scanned : DoubleQuoted.scan (current.rest.drop 1) = some (value.toList, rest) := by
        rw [here, Yaml.quoted, List.cons_append, List.append_assoc]
        exact scan_flatMap_escaped rest value.toList
      rw [readToken_quote here, Scanner.quoted, noted]
      simp only [Option.bind_eq_bind, Option.bind_some]
      rw [scanned, Option.bind_some, String.ofList_toList]

end Tokens

/-- Scanning goes on from the one scanner to the other, which stands in front of the text
with these tokens more. -/
structure Arrives (scanner next : Scanner) (depth : Nat) (text : List Char)
    (tokens : List Token) : Prop where
  ready : Ready next depth
  rest : next.rest = text
  tokens : next.tokens = tokens.reverse ++ scanner.tokens
  run : scanner.run = next.run

theorem Arrives.trans {scanner middle next : Scanner} {depth inner : Nat}
    {text rest : List Char} {first second : List Token}
    (arrives : Arrives scanner middle inner text first)
    (goesOn : Arrives middle next depth rest second) :
    Arrives scanner next depth rest (first ++ second) where
  ready := goesOn.ready
  rest := goesOn.rest
  tokens := by
    rw [goesOn.tokens, arrives.tokens, List.reverse_append, List.append_assoc]
  run := arrives.run.trans goesOn.run

section Steps

variable {scanner current next : Scanner} {depth : Nat} {blanks rest text : List Char}

theorem Advances.run_eq (advances : Advances scanner current depth text)
    (read : current.readToken = some next) (taken : next.rest = rest)
    (shorter : rest.length < text.length) : scanner.run = next.run := by
  have more : current.rest ≠ [] := by
    rw [advances.rest]
    rintro rfl
    exact Nat.not_lt_zero _ shorter
  have shorterStill : next.rest.length < scanner.rest.length := by
    rw [taken]
    exact Nat.lt_of_lt_of_le shorter advances.length_le
  rw [run, advances.advance]
  dsimp only
  rw [if_neg more, read]
  exact dif_pos shorterStill

theorem Advances.arrives {inner : Nat} {token : Token}
    (advances : Advances scanner current depth text) (read : current.readToken = some next)
    (ready : Ready next inner) (taken : next.rest = rest)
    (emitted : next.tokens = token :: current.tokens) (shorter : rest.length < text.length) :
    Arrives scanner next inner rest [token] where
  ready := ready
  rest := taken
  tokens := by
    rw [emitted, advances.tokens]
    rfl
  run := advances.run_eq read taken shorter

theorem Ready.exists_opening {bracket : Bracket} (ready : Ready scanner depth)
    (blank : ∀ character ∈ blanks, character = ' ')
    (here : scanner.rest = blanks ++ bracket.opening :: rest) :
    ∃ next, Arrives scanner next (depth + 1) rest [bracket.start] ∧ next.allowsKey := by
  obtain ⟨current, advances⟩ := ready.exists_advances blank bracket.isWhite_opening here
  obtain ⟨possibleKey, noted, loose, -⟩ := advances.ready.exists_noteKey
  have read := readToken_opening advances.rest
  rw [openBracket, noted, Option.map_some] at read
  refine ⟨_, advances.arrives read ?_ ?_ rfl (Nat.lt_succ_self _), rfl⟩
  · exact ⟨advances.ready.indents, isLoose_none,
      List.forall_mem_cons.mpr ⟨loose, advances.ready.outerKeys⟩,
      congrArg (· + 1) advances.ready.depth⟩
  · exact congrArg (List.drop 1) advances.rest

theorem Ready.exists_closing {bracket : Bracket} (ready : Ready scanner (depth + 1))
    (blank : ∀ character ∈ blanks, character = ' ')
    (here : scanner.rest = blanks ++ bracket.closing :: rest) :
    ∃ next, Arrives scanner next depth rest [bracket.stop] := by
  obtain ⟨current, advances⟩ := ready.exists_advances blank bracket.isWhite_closing here
  obtain ⟨indents, -, outerKeys, sameDepth⟩ := advances.ready
  obtain ⟨possibleKey, others, split⟩ := List.exists_cons_of_length_eq_add_one sameDepth
  rw [split, List.forall_mem_cons] at outerKeys
  rw [split] at sameDepth
  have read := readToken_closing advances.rest
  rw [closeBracket, advances.ready.forgetKey_eq, Option.map_some] at read
  simp only [split] at read
  refine ⟨_, advances.arrives read ?_ ?_ rfl (Nat.lt_succ_self _)⟩
  · exact ⟨indents, outerKeys.1, outerKeys.2, Nat.succ.inj sameDepth⟩
  · exact congrArg (List.drop 1) advances.rest

theorem Ready.exists_comma (ready : Ready scanner depth) (here : scanner.rest = ',' :: rest) :
    ∃ next, Arrives scanner next depth rest [.flowEntry] ∧ next.allowsKey := by
  have starts : StartsToken ',' := ⟨by decide, by decide⟩
  obtain ⟨current, advances⟩ :=
    @exists_advances _ _ [] _ _ ready (List.forall_mem_nil _) starts here
  have read := readToken_comma advances.rest
  rw [flowEntry, advances.ready.forgetKey_eq, Option.map_some] at read
  refine ⟨_, advances.arrives read ?_ ?_ rfl (Nat.lt_succ_self _), rfl⟩
  · exact ⟨advances.ready.indents, isLoose_none, advances.ready.outerKeys, advances.ready.depth⟩
  · exact congrArg (List.drop 1) advances.rest

/-- The scanner has just read a token at which a key may have started. -/
def Keeps (scanner next : Scanner) (length : Nat) : Prop :=
  ∃ key, next.possibleKey = some key ∧ key.tokenCount = scanner.tokens.length ∧
    key.position.line = next.position.line ∧ next.position.index = key.position.index + length

theorem Ready.inFlow (ready : Ready scanner (depth + 1)) : scanner.inFlow := by
  rw [Scanner.inFlow, List.isEmpty_eq_false_iff.mpr]
  · rfl
  · exact List.ne_nil_of_length_eq_add_one ready.depth

theorem Ready.exists_scalar {value : String} {isPlain : Bool} {written : List Char}
    (lexeme : Lexeme value isPlain written) (ready : Ready scanner (depth + 1))
    (blank : ∀ character ∈ blanks, character = ' ') (ends : EndsWord rest)
    (here : scanner.rest = blanks ++ (written ++ rest)) :
    ∃ next, Arrives scanner next (depth + 1) rest [.scalar value isPlain] ∧
      (scanner.allowsKey → Keeps scanner next written.length) := by
  obtain ⟨first, others, split, starts⟩ := lexeme.exists_cons
  have atFirst : scanner.rest = blanks ++ first :: (others ++ rest) := by
    rw [here, split, List.cons_append]
  obtain ⟨current, advances⟩ := ready.exists_advances blank starts atFirst
  obtain ⟨possibleKey, noted, loose, isHere⟩ := advances.ready.exists_noteKey
  have atLexeme : current.rest = written ++ rest := by
    rw [advances.rest, split, List.cons_append]
  have read := readToken_lexeme lexeme ends advances.ready.inFlow atLexeme noted
  refine ⟨_, advances.arrives read ?_ rfl rfl ?_, ?_⟩
  · exact ⟨advances.ready.indents, loose, advances.ready.outerKeys, advances.ready.depth⟩
  · rw [List.length_cons, List.length_append]
    omega
  · intro allowed
    rw [← advances.allowsKey] at allowed
    have moved : (current.moveTo rest).position =
        current.position.skip written.length (written ++ rest) := by
      rw [moveTo, atLexeme, List.length_append, Nat.add_sub_cancel]
    obtain ⟨sameLine, distance⟩ := Position.skip_of_isAscii lexeme.isAscii rest current.position
    rw [← moved] at sameLine distance
    exact ⟨_, isHere allowed, congrArg List.length advances.tokens, sameLine.symm, distance⟩

/-- A colon makes a key of the token in front of it, if that is not too long. -/
theorem Ready.exists_colon {before : List Token} {token : Token} {key : PossibleKey}
    (ready : Ready scanner (depth + 1)) (here : scanner.rest = ':' :: rest)
    (tokens : scanner.tokens = token :: before) (isKey : scanner.possibleKey = some key)
    (count : key.tokenCount = before.length) (sameLine : key.position.line = scanner.position.line)
    (near : scanner.position.index ≤ key.position.index + maxKeyDistance) :
    ∃ next, Ready next (depth + 1) ∧ next.rest = rest ∧
      next.tokens = .value :: token :: .key :: before ∧ scanner.run = next.run := by
  have starts : StartsToken ':' := ⟨by decide, by decide⟩
  obtain ⟨current, advances⟩ :=
    @exists_advances _ _ [] _ _ ready (List.forall_mem_nil _) starts here
  have samePosition : current.position = scanner.position := by
    rw [advances.position, here, Nat.sub_self, Position.skip]
  have kept : current.possibleKey = some key := by
    have notStale : ¬(scanner.position.line < scanner.position.line ∨
        key.position.index + maxKeyDistance < scanner.position.index) := by
      omega
    have forgotten := advances.possibleKey
    rw [samePosition, isKey, forgetStale, sameLine, if_neg (by simpa using notStale)] at forgotten
    exact (Option.some.inj forgotten).symm
  have inserted : current.insertKey key = { current with tokens := token :: .key :: before } := by
    have behind : current.tokens.length - key.tokenCount = 1 := by
      rw [advances.tokens, tokens, count, List.length_cons, Nat.add_sub_cancel_left]
    rw [insertKey, behind, advances.ready.inFlow, advances.tokens, tokens]
    rfl
  have read := readToken_colon advances.ready.inFlow advances.rest
  rw [valueMark, kept] at read
  dsimp only at read
  rw [inserted] at read
  refine ⟨_, ?_, ?_, rfl, advances.run_eq read ?_ (Nat.lt_succ_self _)⟩
  · exact ⟨advances.ready.indents, isLoose_none, advances.ready.outerKeys, advances.ready.depth⟩
  · exact congrArg (List.drop 1) advances.rest
  · exact congrArg (List.drop 1) advances.rest

theorem Ready.exists_key {value : String} {isPlain : Bool} {written : List Char}
    (lexeme : Lexeme value isPlain written) (short : written.length ≤ maxKeyDistance)
    (ready : Ready scanner (depth + 1)) (allowed : scanner.allowsKey)
    (blank : ∀ character ∈ blanks, character = ' ')
    (here : scanner.rest = blanks ++ (written ++ ':' :: ' ' :: rest)) :
    ∃ next, Arrives scanner next (depth + 1) (' ' :: rest)
      [.key, .scalar value isPlain, .value] := by
  obtain ⟨middle, arrives, keeps⟩ := ready.exists_scalar lexeme blank .colon here
  obtain ⟨key, isKey, count, sameLine, distance⟩ := keeps allowed
  have near : middle.position.index ≤ key.position.index + maxKeyDistance := by omega
  obtain ⟨next, readyNext, rest, tokens, run⟩ :=
    arrives.ready.exists_colon arrives.rest arrives.tokens isKey count sameLine near
  exact ⟨next, readyNext, rest, tokens, arrives.run.trans run⟩

end Steps

theorem ready_ofText (text : List Char) : Ready (ofText text) 0 :=
  ⟨rfl, isLoose_none, List.forall_mem_nil _, rfl⟩

theorem Ready.run_eq {scanner : Scanner} (ready : Ready scanner 0) (atEnd : scanner.rest = []) :
    scanner.run = some scanner.tokens.reverse := by
  obtain ⟨noBlock, loose, -, noBracket⟩ := ready
  obtain ⟨rest, position, indents, earlierKey, outerKeys, allowsKey, tokens⟩ := scanner
  obtain rfl : rest = [] := atEnd
  obtain rfl : indents = [] := noBlock
  obtain rfl : outerKeys = [] := List.eq_nil_of_length_eq_zero noBracket
  obtain ⟨possibleKey, forgotten, looseKept⟩ := exists_forgetStale loose position
  have advanced : advance ⟨[], position, [], earlierKey, [], allowsKey, tokens⟩ =
      some ⟨[], position, [], possibleKey, [], allowsKey, tokens⟩ := by
    unfold advance
    simp only [skipWhite, moveTo, Position.skip, List.length_nil, Nat.sub_self, Option.bind_eq_bind]
    rw [forgotten]
    rfl
  have closed : Ready ⟨[], position, [], possibleKey, [], allowsKey, tokens⟩ 0 :=
    ⟨rfl, looseKept, List.forall_mem_nil _, rfl⟩
  have forgotKey := closed.forgetKey_eq
  rw [run, advanced]
  exact congrArg (·.map (·.tokens.reverse)) forgotKey

end Scanner

end RomLayout.Yaml
