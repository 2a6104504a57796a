import RomLayout.Yaml.Scalar

set_option autoImplicit false

/-!
The tokens of a YAML text. Block collections start and end with the indentation of
their lines, and a key is recognised only when the colon behind it is met: until
then its place in the token list is kept as a possible key. A possible key ends with
its line, and its colon stands at most 1024 bytes behind its start.

Anchors, aliases, tags, block scalars and directives are not part of the language.
-/

namespace RomLayout.Yaml

inductive Token where
  | documentStart
  | documentEnd
  | blockSequenceStart
  | blockMappingStart
  | blockEnd
  | flowSequenceStart
  | flowSequenceEnd
  | flowMappingStart
  | flowMappingEnd
  | blockEntry
  | flowEntry
  | key
  | value
  /-- A scalar, and whether it stands without quotes. -/
  | scalar (text : String) (isPlain : Bool)
  deriving DecidableEq

structure Position where
  /-- Number of bytes in front of it. -/
  index : Nat
  line : Nat
  /-- Number of characters in front of it on its line. -/
  column : Nat
  deriving DecidableEq

namespace Position

/-- The position behind so many characters of a text. -/
def skip (position : Position) : Nat → List Char → Position
  | 0, _ => position
  | _ + 1, [] => position
  | count + 1, character :: rest =>
      let index := position.index + character.utf8Size
      let isPaired := character == '\r' && rest.head? == some '\n'
      let next : Position :=
        if isBreak character && !isPaired then ⟨index, position.line + 1, 0⟩
        else ⟨index, position.line, position.column + 1⟩
      next.skip count rest

end Position

/-- A place where a key would have started, if a colon follows. -/
structure PossibleKey where
  position : Position
  /-- Number of tokens in front of it. -/
  tokenCount : Nat
  /-- Whether the text makes no sense unless it is a key. -/
  isRequired : Bool
  deriving DecidableEq

structure Scanner where
  rest : List Char
  position : Position
  /-- Columns of the open block collections, the innermost first. -/
  indents : List Nat
  /-- The possible key between the innermost brackets. -/
  possibleKey : Option PossibleKey
  /-- The possible keys outside of each open bracket, the innermost first. -/
  outerKeys : List (Option PossibleKey)
  allowsKey : Bool
  /-- The tokens so far, the latest first. -/
  tokens : List Token

namespace Scanner

def ofText (text : List Char) : Scanner where
  rest := text
  position := ⟨0, 0, 0⟩
  indents := []
  possibleKey := none
  outerKeys := []
  allowsKey := true
  tokens := []

def inFlow (scanner : Scanner) : Bool := !scanner.outerKeys.isEmpty

def moveTo (scanner : Scanner) (rest : List Char) : Scanner :=
  { scanner with
    rest
    position := scanner.position.skip (scanner.rest.length - rest.length) scanner.rest }

def emit (scanner : Scanner) (token : Token) : Scanner :=
  { scanner with tokens := token :: scanner.tokens }

def takeToken (scanner : Scanner) (count : Nat) (token : Token) : Scanner :=
  (scanner.moveTo (scanner.rest.drop count)).emit token

/-- What follows blanks, comments and line breaks, and whether a key may start
there. Tabs count as blanks where no key may start. -/
def skipWhite (inFlow : Bool) : (inComment allowsKey : Bool) → List Char → List Char × Bool
  | _, allowsKey, [] => ([], allowsKey)
  | inComment, allowsKey, character :: rest =>
      if isBreak character then skipWhite inFlow false (allowsKey || !inFlow) rest
      else if inComment then skipWhite inFlow true allowsKey rest
      else if character == ' ' || (character == '\t' && (inFlow || !allowsKey)) then
        skipWhite inFlow false allowsKey rest
      else if character == '#' then skipWhite inFlow true allowsKey rest
      else (character :: rest, allowsKey)

/-- Greatest number of bytes between the start of a key and its colon. -/
def maxKeyDistance : Nat := 1024

/-- Gives up a possible key that is too far away. -/
def forgetStale (position : Position) : Option PossibleKey → Option (Option PossibleKey)
  | none => some none
  | some key =>
      if key.position.line < position.line
          || key.position.index + maxKeyDistance < position.index then
        if key.isRequired then none else some none
      else some (some key)

/-- Ends the block collections that stand to the right of a column. -/
def closeBlocks (column : Nat) : List Nat → List Token → List Nat × List Token
  | [], tokens => ([], tokens)
  | indent :: outer, tokens =>
      if column < indent then closeBlocks column outer (.blockEnd :: tokens)
      else (indent :: outer, tokens)

/-- Goes on to the next token, and ends what is not indented enough for it. -/
def advance (scanner : Scanner) : Option Scanner := do
  let (rest, allowsKey) := skipWhite scanner.inFlow false scanner.allowsKey scanner.rest
  let moved := { scanner.moveTo rest with allowsKey }
  let possibleKey ← forgetStale moved.position moved.possibleKey
  let outerKeys ← moved.outerKeys.mapM (forgetStale moved.position)
  let current := { moved with possibleKey, outerKeys }
  if current.inFlow then some current
  else
    let (indents, tokens) := closeBlocks current.position.column current.indents current.tokens
    some { current with indents, tokens }

/-- Ends all block collections, unless brackets are open. -/
def closeAllBlocks (scanner : Scanner) : Scanner :=
  if scanner.inFlow then scanner
  else
    { scanner with
      indents := []
      tokens := List.replicate scanner.indents.length .blockEnd ++ scanner.tokens }

/-- Starts a block collection if the column is to the right of the innermost
one. -/
def openBlock (scanner : Scanner) (token : Token) : Scanner :=
  let column := scanner.position.column
  if scanner.indents.head?.all (· < column) then
    { scanner with indents := column :: scanner.indents, tokens := token :: scanner.tokens }
  else scanner

def forgetKey (scanner : Scanner) : Option Scanner :=
  if scanner.possibleKey.any (·.isRequired) then none
  else some { scanner with possibleKey := none }

/-- Keeps the position as a possible key, if one may start here. -/
def noteKey (scanner : Scanner) : Option Scanner :=
  if scanner.allowsKey then
    scanner.forgetKey.map fun current =>
      { current with
        possibleKey := some
          { position := current.position
            tokenCount := current.tokens.length
            isRequired := !current.inFlow
              && current.indents.head? == some current.position.column } }
  else some scanner

def openBracket (scanner : Scanner) (token : Token) : Option Scanner :=
  scanner.noteKey.map fun current =>
    { current.takeToken 1 token with
      outerKeys := current.possibleKey :: current.outerKeys
      possibleKey := none
      allowsKey := true }

def closeBracket (scanner : Scanner) (token : Token) : Option Scanner :=
  scanner.forgetKey.map fun current =>
    let closed := { current.takeToken 1 token with allowsKey := false }
    match current.outerKeys with
    | [] => closed
    | possibleKey :: outerKeys => { closed with possibleKey, outerKeys }

def flowEntry (scanner : Scanner) : Option Scanner :=
  scanner.forgetKey.map fun current => { current.takeToken 1 .flowEntry with allowsKey := true }

def documentMark (scanner : Scanner) (token : Token) : Option Scanner :=
  scanner.closeAllBlocks.forgetKey.map fun current =>
    { current.takeToken 3 token with allowsKey := false }

def blockEntry (scanner : Scanner) : Option Scanner :=
  let opened :=
    if scanner.inFlow then some scanner
    else if scanner.allowsKey then some (scanner.openBlock .blockSequenceStart)
    else none
  (opened.bind forgetKey).map fun current =>
    { current.takeToken 1 .blockEntry with allowsKey := true }

def keyMark (scanner : Scanner) : Option Scanner :=
  let opened :=
    if scanner.inFlow then some scanner
    else if scanner.allowsKey then some (scanner.openBlock .blockMappingStart)
    else none
  (opened.bind forgetKey).map fun current =>
    { current.takeToken 1 .key with allowsKey := !current.inFlow }

/-- Puts the key token, and the start of a block mapping where one starts, in
front of the tokens of the key. -/
def insertKey (scanner : Scanner) (key : PossibleKey) : Scanner :=
  let count := scanner.tokens.length - key.tokenCount
  let inside := scanner.tokens.take count
  let before := scanner.tokens.drop count
  if !scanner.inFlow && scanner.indents.head?.all (· < key.position.column) then
    { scanner with
      indents := key.position.column :: scanner.indents
      tokens := inside ++ .key :: .blockMappingStart :: before }
  else { scanner with tokens := inside ++ .key :: before }

def valueMark (scanner : Scanner) : Option Scanner :=
  match scanner.possibleKey with
  | some key =>
      let current := { scanner.insertKey key with possibleKey := none }
      some { current.takeToken 1 .value with allowsKey := false }
  | none =>
      if scanner.inFlow then some { scanner.takeToken 1 .value with allowsKey := false }
      else if scanner.allowsKey then
        some { (scanner.openBlock .blockMappingStart).takeToken 1 .value with allowsKey := true }
      else none

/-- The least column for a later line of a plain scalar. -/
def plainIndent (scanner : Scanner) : Nat :=
  match scanner.indents with
  | [] => 0
  | indent :: _ => indent + 1

def plain (scanner : Scanner) : Option Scanner := do
  let current ← scanner.noteKey
  let (text, rest, endsLine) ← Plain.scan current.inFlow current.plainIndent current.rest
  let scanned := current.moveTo rest
  some { scanned.emit (.scalar (String.ofList text) true) with allowsKey := endsLine }

def quoted (scanner : Scanner) (scan : List Char → Option (List Char × List Char)) :
    Option Scanner := do
  let current ← scanner.noteKey
  let (text, rest) ← scan (current.rest.drop 1)
  let scanned := current.moveTo rest
  some { scanned.emit (.scalar (String.ofList text) false) with allowsKey := false }

/-- Whether a plain scalar can start with a character: it is no white space and has
no meaning of its own there. -/
def startsPlain (character : Char) : Bool :=
  !isWhite character && !"-?:,[]\x7b\x7d#&*!|>'\"%@`".toList.contains character

def readToken (scanner : Scanner) : Option Scanner :=
  if scanner.position.column == 0 && isDocumentMark scanner.rest then
    scanner.documentMark
      (if scanner.rest.head? == some '-' then .documentStart else .documentEnd)
  else match scanner.rest with
    | [] => none
    | '[' :: _ => scanner.openBracket .flowSequenceStart
    | ']' :: _ => scanner.closeBracket .flowSequenceEnd
    | '\x7b' :: _ => scanner.openBracket .flowMappingStart
    | '\x7d' :: _ => scanner.closeBracket .flowMappingEnd
    | ',' :: _ => scanner.flowEntry
    | '-' :: rest => if endsWord rest then scanner.blockEntry else scanner.plain
    | '?' :: rest => if scanner.inFlow || endsWord rest then scanner.keyMark else scanner.plain
    | ':' :: rest => if scanner.inFlow || endsWord rest then scanner.valueMark else scanner.plain
    | '\'' :: _ => scanner.quoted SingleQuoted.scan
    | '"' :: _ => scanner.quoted DoubleQuoted.scan
    | character :: _ => if startsPlain character then scanner.plain else none

/-- All tokens up to the end of the text. Each takes at least one character. -/
def run (scanner : Scanner) : Option (List Token) :=
  match scanner.advance with
  | none => none
  | some current =>
      if current.rest = [] then current.closeAllBlocks.forgetKey.map (·.tokens.reverse)
      else match current.readToken with
        | none => none
        | some next =>
            if _shorter : next.rest.length < scanner.rest.length then next.run else none
termination_by scanner.rest.length

end Scanner

def Token.scan (text : String) : Option (List Token) :=
  if text.toList.all isPrintable then (Scanner.ofText text.toList).run else none

end RomLayout.Yaml
