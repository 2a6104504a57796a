import RomLayout.Yaml.Node
import RomLayout.Proofs.Yaml.Scanning

set_option autoImplicit false

/-!
Nodes on one line: sequences and mappings in brackets, their elements and members with
commas between them. A node that is written so is read back.

The elements of a sequence and the members of a mapping differ in what one of them is,
and not in how they stand between the brackets, so both are items here.
-/

namespace RomLayout.Yaml

theorem commaSeparated_cons_cons (item second : List Char) (others : List (List Char)) :
    commaSeparated (item :: second :: others) =
      item ++ ',' :: ' ' :: commaSeparated (second :: others) := rfl

/-- The tokens of items, with commas between them. -/
def Token.separated : List (List Token) → List Token
  | [] => []
  | [item] => item
  | item :: others => item ++ .flowEntry :: separated others

theorem Token.separated_cons_cons (item second : List Token) (others : List (List Token)) :
    separated (item :: second :: others) = item ++ .flowEntry :: separated (second :: others) :=
  rfl

namespace Node

mutual

def render : Node → List Char
  | scalar text isPlain => if isPlain then text.toList else quoted text
  | sequence elements => bracketed (renderElements elements)
  | mapping members => braced (renderMembers members)

def renderElements : List Node → List (List Char)
  | [] => []
  | element :: others => element.render :: renderElements others

def renderMembers : List (Node × Node) → List (List Char)
  | [] => []
  | (key, value) :: others => pair key.render value.render :: renderMembers others

end

mutual

def tokens : Node → List Token
  | scalar text isPlain => [.scalar text isPlain]
  | sequence elements =>
      .flowSequenceStart :: (Token.separated (tokensOfElements elements) ++ [.flowSequenceEnd])
  | mapping members =>
      .flowMappingStart :: (Token.separated (tokensOfMembers members) ++ [.flowMappingEnd])

def tokensOfElements : List Node → List (List Token)
  | [] => []
  | element :: others => element.tokens :: tokensOfElements others

def tokensOfMembers : List (Node × Node) → List (List Token)
  | [] => []
  | (key, value) :: others =>
      (.key :: (key.tokens ++ .value :: value.tokens)) :: tokensOfMembers others

end

/-- A scalar short enough for a key. -/
def IsKey (key : Node) : Prop :=
  ∃ text isPlain, key = .scalar text isPlain ∧ Lexeme text isPlain key.render ∧
    key.render.length ≤ Scanner.maxKeyDistance

/-- Nodes that can stand in brackets: scalars without quotes are words, and every key can be
one. -/
inductive IsFlow : Node → Prop where
  | scalar {text : String} {isPlain : Bool} :
      Lexeme text isPlain (scalar text isPlain).render → IsFlow (scalar text isPlain)
  | sequence {elements : List Node} :
      (∀ element ∈ elements, IsFlow element) → IsFlow (sequence elements)
  | mapping {members : List (Node × Node)} :
      (∀ member ∈ members, member.1.IsKey) →
      (∀ member ∈ members, IsFlow member.2) → IsFlow (mapping members)

end Node

namespace Scanner

/-- Wherever the text stands between brackets, it is scanned as the tokens. A member of a
mapping needs a place where a key may start. -/
def Reads (isMember : Bool) (text : List Char) (tokens : List Token) : Prop :=
  ∀ ⦃scanner : Scanner⦄ ⦃depth : Nat⦄ ⦃blanks rest : List Char⦄,
    Ready scanner (depth + 1) → (isMember → scanner.allowsKey) →
    (∀ character ∈ blanks, character = ' ') → EndsWord rest →
    scanner.rest = blanks ++ (text ++ rest) →
    ∃ next, Arrives scanner next (depth + 1) rest tokens

section Items

variable {scanner : Scanner} {depth : Nat} {blanks rest : List Char}
  {items : List (List Char × List Token)}

theorem exists_items (bracket : Bracket) (reads : ∀ item ∈ items, Reads true item.1 item.2)
    (ready : Ready scanner (depth + 1)) (allowed : scanner.allowsKey)
    (blank : ∀ character ∈ blanks, character = ' ')
    (here : scanner.rest =
      blanks ++ (commaSeparated (items.map (·.1)) ++ bracket.closing :: rest)) :
    ∃ next, Arrives scanner next depth rest
      (Token.separated (items.map (·.2)) ++ [bracket.stop]) := by
  induction items generalizing scanner blanks with
  | nil => exact ready.exists_closing blank here
  | cons item others inductionHypothesis =>
      obtain ⟨isHere, behind⟩ := List.forall_mem_cons.mp reads
      cases others with
      | nil =>
          obtain ⟨middle, arrives⟩ := isHere ready (fun _ => allowed) blank
            (bracket.endsWord_closing rest) here
          have nothing : ∀ character ∈ [], character = ' ' := List.forall_mem_nil _
          obtain ⟨next, closes⟩ := arrives.ready.exists_closing nothing arrives.rest
          exact ⟨next, arrives.trans closes⟩
      | cons second others =>
          have comma : EndsWord (',' :: ' ' :: (commaSeparated ((second :: others).map (·.1)) ++
              bracket.closing :: rest)) := .mark rfl
          have split : scanner.rest = blanks ++ (item.1 ++ ',' :: ' ' ::
              (commaSeparated ((second :: others).map (·.1)) ++ bracket.closing :: rest)) := by
            rw [here, List.map_cons, List.map_cons, commaSeparated_cons_cons, List.append_assoc]
            rfl
          obtain ⟨middle, arrives⟩ := isHere ready (fun _ => allowed) blank comma split
          obtain ⟨next, goesOn, allowedNext⟩ := arrives.ready.exists_comma arrives.rest
          obtain ⟨last, closes⟩ := inductionHypothesis behind goesOn.ready allowedNext
            (List.forall_mem_singleton.mpr rfl) goesOn.rest
          have joined := (arrives.trans goesOn).trans closes
          rw [List.append_assoc] at joined
          rw [List.map_cons, List.map_cons, Token.separated_cons_cons, List.append_assoc]
          exact ⟨last, joined⟩

/-- Items in brackets, wherever they stand. -/
theorem exists_bracketed (bracket : Bracket) (reads : ∀ item ∈ items, Reads true item.1 item.2)
    (ready : Ready scanner depth) (blank : ∀ character ∈ blanks, character = ' ')
    (here : scanner.rest = blanks ++
      (bracket.opening :: (commaSeparated (items.map (·.1)) ++ [bracket.closing]) ++ rest)) :
    ∃ next, Arrives scanner next depth rest
      (bracket.start :: (Token.separated (items.map (·.2)) ++ [bracket.stop])) := by
  rw [List.cons_append, List.append_assoc] at here
  obtain ⟨inside, opens, allowed⟩ := ready.exists_opening blank here
  have nothing : ∀ character ∈ [], character = ' ' := List.forall_mem_nil _
  obtain ⟨next, closes⟩ := exists_items bracket reads opens.ready allowed nothing opens.rest
  exact ⟨next, opens.trans closes⟩

end Items

theorem reads_lexeme {value : String} {isPlain : Bool} {written : List Char}
    (lexeme : Lexeme value isPlain written) : Reads false written [.scalar value isPlain] := by
  intro scanner depth blanks rest ready _ blank ends here
  obtain ⟨next, arrives, -⟩ := ready.exists_scalar lexeme blank ends here
  exact ⟨next, arrives⟩

theorem reads_bracketed {items : List (List Char × List Token)} (bracket : Bracket)
    (reads : ∀ item ∈ items, Reads true item.1 item.2) :
    Reads false (bracket.opening :: (commaSeparated (items.map (·.1)) ++ [bracket.closing]))
      (bracket.start :: (Token.separated (items.map (·.2)) ++ [bracket.stop])) := by
  intro scanner depth blanks rest ready _ blank _ here
  exact exists_bracketed bracket reads ready blank here

theorem Reads.member {text : List Char} {tokens : List Token} (reads : Reads false text tokens) :
    Reads true text tokens := by
  intro scanner depth blanks rest ready _
  exact reads ready Bool.false_ne_true.elim

theorem reads_pair {value : String} {isPlain : Bool} {written text : List Char}
    {tokens : List Token} (lexeme : Lexeme value isPlain written)
    (short : written.length ≤ maxKeyDistance) (reads : Reads false text tokens) :
    Reads true (pair written text) (.key :: .scalar value isPlain :: .value :: tokens) := by
  intro scanner depth blanks rest ready allowed blank ends here
  rw [pair, List.append_assoc] at here
  obtain ⟨middle, arrives⟩ := ready.exists_key lexeme short (allowed rfl) blank here
  obtain ⟨next, goesOn⟩ := @reads _ _ [' '] _ arrives.ready Bool.false_ne_true.elim
    (List.forall_mem_singleton.mpr rfl) ends arrives.rest
  exact ⟨next, arrives.trans goesOn⟩

end Scanner

namespace Node

theorem renderElements_eq_map (elements : List Node) :
    renderElements elements = elements.map render := by
  induction elements with
  | nil => rfl
  | cons element others inductionHypothesis =>
      rw [renderElements, inductionHypothesis, List.map_cons]

theorem tokensOfElements_eq_map (elements : List Node) :
    tokensOfElements elements = elements.map tokens := by
  induction elements with
  | nil => rfl
  | cons element others inductionHypothesis =>
      rw [tokensOfElements, inductionHypothesis, List.map_cons]

theorem renderMembers_eq_map (members : List (Node × Node)) :
    renderMembers members = members.map fun member => pair member.1.render member.2.render := by
  induction members with
  | nil => rfl
  | cons member others inductionHypothesis =>
      rw [renderMembers, inductionHypothesis, List.map_cons]

theorem tokensOfMembers_eq_map (members : List (Node × Node)) :
    tokensOfMembers members =
      members.map fun member => .key :: (member.1.tokens ++ .value :: member.2.tokens) := by
  induction members with
  | nil => rfl
  | cons member others inductionHypothesis =>
      rw [tokensOfMembers, inductionHypothesis, List.map_cons]

theorem reads_members {members : List (Node × Node)} (keys : ∀ member ∈ members, member.1.IsKey)
    (values : ∀ member ∈ members, Scanner.Reads false member.2.render member.2.tokens) :
    ∀ item ∈ members.map fun member => (pair member.1.render member.2.render,
      Token.key :: (member.1.tokens ++ .value :: member.2.tokens)),
      Scanner.Reads true item.1 item.2 := by
  rw [List.forall_mem_map]
  intro member isMember
  obtain ⟨text, isPlain, isKey, lexeme, short⟩ := keys member isMember
  rw [isKey] at lexeme short ⊢
  exact Scanner.reads_pair lexeme short (values member isMember)

theorem IsFlow.reads {node : Node} (isFlow : node.IsFlow) :
    Scanner.Reads false node.render node.tokens := by
  induction isFlow with
  | scalar lexeme => exact Scanner.reads_lexeme lexeme
  | @sequence elements _ inductionHypothesis =>
      have reads : ∀ item ∈ elements.map fun element => (element.render, element.tokens),
          Scanner.Reads true item.1 item.2 := by
        rw [List.forall_mem_map]
        exact fun element isElement => (inductionHypothesis element isElement).member
      have inBrackets := Scanner.reads_bracketed .square reads
      rw [List.map_map, List.map_map] at inBrackets
      rw [render, tokens, renderElements_eq_map, tokensOfElements_eq_map]
      exact inBrackets
  | @mapping members keys _ inductionHypothesis =>
      have inBrackets := Scanner.reads_bracketed .curly (reads_members keys inductionHypothesis)
      rw [List.map_map, List.map_map] at inBrackets
      rw [render, tokens, renderMembers_eq_map, tokensOfMembers_eq_map]
      exact inBrackets

section Ascii

theorem isAscii_commaSeparated {items : List (List Char)}
    (ascii : ∀ item ∈ items, ∀ character ∈ item, isAscii character) :
    ∀ character ∈ commaSeparated items, isAscii character := by
  induction items with
  | nil => exact List.forall_mem_nil _
  | cons item others inductionHypothesis =>
      obtain ⟨isHere, behind⟩ := List.forall_mem_cons.mp ascii
      cases others with
      | nil => exact isHere
      | cons second others =>
          rw [commaSeparated_cons_cons, List.forall_mem_append, List.forall_mem_cons,
            List.forall_mem_cons]
          exact ⟨isHere, rfl, rfl, inductionHypothesis behind⟩

theorem isAscii_pair {key value : List Char} (asciiKey : ∀ character ∈ key, isAscii character)
    (asciiValue : ∀ character ∈ value, isAscii character) :
    ∀ character ∈ pair key value, isAscii character := by
  rw [pair, List.forall_mem_append, List.forall_mem_cons, List.forall_mem_cons]
  exact ⟨asciiKey, rfl, rfl, asciiValue⟩

theorem IsFlow.isAscii {node : Node} (isFlow : node.IsFlow) :
    ∀ character ∈ node.render, isAscii character := by
  induction isFlow with
  | scalar lexeme => exact lexeme.isAscii
  | @sequence elements _ inductionHypothesis =>
      rw [render, renderElements_eq_map, bracketed, List.forall_mem_cons, List.forall_mem_append,
        List.forall_mem_singleton]
      refine ⟨rfl, isAscii_commaSeparated ?_, rfl⟩
      rw [List.forall_mem_map]
      exact inductionHypothesis
  | @mapping members keys _ inductionHypothesis =>
      rw [render, renderMembers_eq_map, braced, List.forall_mem_cons, List.forall_mem_append,
        List.forall_mem_singleton]
      refine ⟨rfl, isAscii_commaSeparated ?_, rfl⟩
      rw [List.forall_mem_map]
      intro member isMember
      obtain ⟨_, _, _, lexeme, _⟩ := keys member isMember
      exact isAscii_pair lexeme.isAscii (inductionHypothesis member isMember)

end Ascii

section Read

/-- What starts a node between brackets. -/
def startsNode : Token → Bool
  | .scalar _ _ => true
  | .flowSequenceStart => true
  | .flowMappingStart => true
  | _ => false

theorem exists_tokens_cons (node : Node) :
    ∃ first others, node.tokens = first :: others ∧ startsNode first := by
  cases node <;> exact ⟨_, _, rfl, rfl⟩

/-- The tokens behind the first of some items. -/
def tokensBehind (closing : Token) : List (List Token) → List Token
  | [] => [closing]
  | items => .flowEntry :: (Token.separated items ++ [closing])

theorem separated_cons (closing : Token) (item : List Token) (others : List (List Token))
    (rest : List Token) :
    Token.separated (item :: others) ++ closing :: rest =
      item ++ (tokensBehind closing others ++ rest) := by
  cases others with
  | nil => rfl
  | cons second others =>
      have behind : tokensBehind closing (second :: others) =
          .flowEntry :: (Token.separated (second :: others) ++ [closing]) := rfl
      rw [Token.separated_cons_cons, behind]
      simp only [List.append_assoc, List.cons_append, List.nil_append]

theorem length_separated_cons (closing : Token) (item : List Token) (others : List (List Token)) :
    (Token.separated (item :: others)).length + 1 =
      item.length + (tokensBehind closing others).length := by
  have sameLength := congrArg List.length (separated_cons closing item others [])
  simpa using sameLength

theorem length_separated_lt (closing : Token) (items : List (List Token)) :
    (Token.separated items).length < (tokensBehind closing items).length := by
  cases items with
  | nil => exact Nat.zero_lt_one
  | cons item others =>
      have behind : tokensBehind closing (item :: others) =
          .flowEntry :: (Token.separated (item :: others) ++ [closing]) := rfl
      rw [behind, List.length_cons, List.length_append]
      omega

theorem elementTokens?_first {closing : Token} (items : List Token) (rest : List Token) :
    elementTokens? true closing (items ++ closing :: rest) = some (items ++ closing :: rest) := by
  cases items <;> rfl

theorem elementTokens?_behind {closing : Token} (notComma : closing ≠ .flowEntry)
    (items : List (List Token)) (rest : List Token) :
    elementTokens? false closing (tokensBehind closing items ++ rest) =
      some (Token.separated items ++ closing :: rest) := by
  cases items with
  | nil =>
      rw [tokensBehind, List.singleton_append, elementTokens?, beq_self_eq_true]
      rfl
  | cons item others =>
      have isOther : (Token.flowEntry == closing) = false := beq_eq_false_iff_ne.mpr notComma.symm
      rw [tokensBehind, List.cons_append, elementTokens?, isOther, List.append_assoc]
      · rfl
      · exact List.cons_ne_nil _ _

theorem readFlowSequence_element {fuel : Nat} {isFirst : Bool} {tokens behind : List Token}
    {first : Token}
    (starts : elementTokens? isFirst .flowSequenceEnd tokens = some (first :: behind))
    (isNode : startsNode first) :
    readFlowSequence (fuel + 1) isFirst tokens =
      (read fuel .flow (first :: behind)).bind fun (element, left) =>
        (readFlowSequence fuel false left).bind fun (others, left) =>
          some (element :: others, left) := by
  conv =>
    lhs
    unfold readFlowSequence
  rw [starts]
  cases first <;> first | rfl | cases isNode

theorem readFlowMapping_member {fuel : Nat} {isFirst : Bool} {tokens behind : List Token}
    {first : Token}
    (starts : elementTokens? isFirst .flowMappingEnd tokens = some (.key :: first :: behind))
    (isNode : startsNode first) :
    readFlowMapping (fuel + 2) isFirst tokens =
      (read fuel .flow (first :: behind)).bind fun (key, left) =>
        (readValue (fuel + 1) mappingStops .flow left).bind fun (value, left) =>
          (readFlowMapping (fuel + 1) false left).bind fun (others, left) =>
            some ((key, value) :: others, left) := by
  have goesOn : readUnless (fuel + 1) (fun token => token == .value || mappingStops token) .flow
      (first :: behind) = read fuel .flow (first :: behind) := by
    rw [readUnless]
    cases first <;> first | rfl | cases isNode
  conv =>
    lhs
    unfold readFlowMapping
  rw [starts]
  dsimp only
  rw [goesOn]
  rfl

theorem readValue_node {fuel : Nat} {behind : List Token} {first : Token}
    (isNode : startsNode first) :
    readValue (fuel + 2) mappingStops .flow (.value :: first :: behind) =
      read fuel .flow (first :: behind) := by
  rw [readValue, readUnless]
  cases first <;> first | rfl | cases isNode

mutual

theorem read_tokens (context : Context) (rest : List Token) :
    (node : Node) → ∀ fuel, node.tokens.length ≤ fuel →
      read fuel context (node.tokens ++ rest) = some (node, rest)
  | .scalar text isPlain, fuel, enough => by
      cases fuel with
      | zero => cases enough
      | succ fuel => rfl
  | .sequence elements, fuel, enough => by
      cases fuel with
      | zero => cases enough
      | succ fuel =>
          rw [tokens, List.length_cons, List.length_append, List.length_singleton] at enough
          have inside := readFlowSequence_tokens rest elements fuel true _
            (elementTokens?_first _ rest) (Nat.le_of_succ_le_succ enough)
          rw [tokens, List.cons_append, List.append_assoc, read]
          change (readFlowSequence fuel true _).bind _ = _
          rw [List.singleton_append, inside]
          rfl
  | .mapping members, fuel, enough => by
      cases fuel with
      | zero => cases enough
      | succ fuel =>
          rw [tokens, List.length_cons, List.length_append, List.length_singleton] at enough
          have inside := readFlowMapping_tokens rest members fuel true _
            (elementTokens?_first _ rest) (Nat.le_of_succ_le_succ enough)
          rw [tokens, List.cons_append, List.append_assoc, read]
          change (readFlowMapping fuel true _).bind _ = _
          rw [List.singleton_append, inside]
          rfl

theorem readFlowSequence_tokens (rest : List Token) :
    (elements : List Node) → ∀ fuel isFirst tokens,
      elementTokens? isFirst .flowSequenceEnd tokens =
        some (Token.separated (tokensOfElements elements) ++ .flowSequenceEnd :: rest) →
      (Token.separated (tokensOfElements elements)).length + 1 ≤ fuel →
      readFlowSequence fuel isFirst tokens = some (elements, rest)
  | [], fuel, isFirst, tokens, starts, enough => by
      cases fuel with
      | zero => cases enough
      | succ fuel =>
          unfold readFlowSequence
          rw [starts]
          rfl
  | element :: others, fuel, isFirst, tokens, starts, enough => by
      cases fuel with
      | zero => cases enough
      | succ fuel =>
          obtain ⟨first, behind, split, isNode⟩ := element.exists_tokens_cons
          rw [tokensOfElements, separated_cons] at starts
          rw [tokensOfElements, length_separated_cons .flowSequenceEnd] at enough
          have shorter := length_separated_lt .flowSequenceEnd (tokensOfElements others)
          have read := read_tokens .flow
            (tokensBehind .flowSequenceEnd (tokensOfElements others) ++ rest) element fuel
            (by omega)
          have inside := readFlowSequence_tokens rest others fuel false _
            (elementTokens?_behind (by decide) (tokensOfElements others) rest)
            (by
              have : 0 < element.tokens.length := by rw [split]; exact Nat.succ_pos _
              omega)
          rw [split, List.cons_append] at starts read
          rw [readFlowSequence_element starts isNode, read, Option.bind_some]
          dsimp only
          rw [inside, Option.bind_some]

theorem readFlowMapping_tokens (rest : List Token) :
    (members : List (Node × Node)) → ∀ fuel isFirst tokens,
      elementTokens? isFirst .flowMappingEnd tokens =
        some (Token.separated (tokensOfMembers members) ++ .flowMappingEnd :: rest) →
      (Token.separated (tokensOfMembers members)).length + 1 ≤ fuel →
      readFlowMapping fuel isFirst tokens = some (members, rest)
  | [], fuel, isFirst, tokens, starts, enough => by
      cases fuel with
      | zero => cases enough
      | succ fuel =>
          unfold readFlowMapping
          rw [starts]
          rfl
  | (key, value) :: others, fuel, isFirst, tokens, starts, enough => by
      obtain ⟨first, behind, split, isNode⟩ := key.exists_tokens_cons
      obtain ⟨second, afterSecond, splitValue, isValueNode⟩ := value.exists_tokens_cons
      rw [tokensOfMembers, separated_cons, List.cons_append, List.append_assoc] at starts
      rw [tokensOfMembers, length_separated_cons .flowMappingEnd, List.length_cons,
        List.length_append, List.length_cons] at enough
      have shorter := length_separated_lt .flowMappingEnd (tokensOfMembers others)
      obtain ⟨less, rfl⟩ : ∃ less, fuel = less + 3 := ⟨fuel - 3, by omega⟩
      have readKey := read_tokens .flow (.value :: value.tokens ++
        (tokensBehind .flowMappingEnd (tokensOfMembers others) ++ rest)) key (less + 1) (by omega)
      have readNode := read_tokens .flow
        (tokensBehind .flowMappingEnd (tokensOfMembers others) ++ rest) value less (by omega)
      have inside := readFlowMapping_tokens rest others (less + 2) false _
        (elementTokens?_behind (by decide) (tokensOfMembers others) rest) (by omega)
      rw [split, List.cons_append] at starts readKey
      rw [splitValue, List.cons_append] at readNode
      rw [readFlowMapping_member starts isNode, readKey, Option.bind_some]
      dsimp only
      rw [splitValue, List.cons_append, List.cons_append, readValue_node isValueNode, readNode,
        Option.bind_some]
      dsimp only
      rw [inside, Option.bind_some]

end

end Read

theorem scan_render {members : List (Node × Node)} (isFlow : (mapping members).IsFlow) :
    Token.scan (String.ofList (mapping members).render) = some (mapping members).tokens := by
  have printable : (mapping members).render.all isPrintable := by
    rw [List.all_eq_true]
    exact fun character member => isPrintable_of_isAscii (isFlow.isAscii character member)
  obtain ⟨next, arrives⟩ : ∃ next, Scanner.Arrives (.ofText (mapping members).render) next 0 []
      (mapping members).tokens := by
    have nothing : ∀ character ∈ [], character = ' ' := List.forall_mem_nil _
    cases isFlow with
    | mapping keys values =>
        have reads := reads_members keys fun member isMember => (values member isMember).reads
        have inBrackets := @Scanner.exists_bracketed _ 0 [] [] _ .curly reads
          (Scanner.ready_ofText (mapping members).render) nothing
        rw [List.map_map, List.map_map] at inBrackets
        rw [tokens, tokensOfMembers_eq_map]
        apply inBrackets
        rw [render, renderMembers_eq_map, List.append_nil]
        rfl
  have atEnd : next.tokens.reverse = (mapping members).tokens := by
    rw [arrives.tokens, List.reverse_append, List.reverse_reverse]
    rfl
  rw [Token.scan, String.toList_ofList, if_pos printable, arrives.run,
    arrives.ready.run_eq arrives.rest, atEnd]

/-- A mapping in brackets is read back. -/
theorem ofText?_render {members : List (Node × Node)} (isFlow : (mapping members).IsFlow) :
    ofText? (String.ofList (mapping members).render) = some (mapping members) := by
  have enough : (mapping members).tokens.length ≤ stepBound (mapping members).tokens := by
    rw [stepBound]
    omega
  have read : readAll (mapping members).tokens = some (mapping members, []) := by
    have readFlow := read_tokens .block [] (mapping members) _ enough
    rwa [List.append_nil] at readFlow
  -- The text starts with a bracket, not with a document mark.
  have accepted : ofTokens? (mapping members).tokens = some (mapping members) := by
    rw [tokens] at read ⊢
    simp [ofTokens?, read]
  rw [ofText?, scan_render isFlow, Option.bind_some, accepted]

end Node

end RomLayout.Yaml
