import RomLayout.Yaml.Token

set_option autoImplicit false

/-!
YAML nodes: scalars, sequences and mappings, as a text of one document holds them.
Where a key, a value or an element is left out stands an empty plain scalar.
-/

namespace RomLayout.Yaml

inductive Node where
  | scalar (text : String) (isPlain : Bool)
  | sequence (elements : List Node)
  | mapping (members : List (Node × Node))

namespace Node

/-- What stands where nothing is written. -/
def nothing : Node := scalar "" true

/-- Tokens that can follow a key, value or element that is left out. -/
abbrev Stops := Token → Bool

def blockSequenceStops : Stops := fun token => token == .blockEntry || token == .blockEnd

def blockStops : Stops := fun token => token == .key || token == .value || token == .blockEnd

def indentlessStops : Stops := fun token => blockStops token || token == .blockEntry

def sequenceStops : Stops := fun token => token == .flowEntry || token == .flowSequenceEnd

def mappingStops : Stops := fun token => token == .flowEntry || token == .flowMappingEnd

/-- Where a node stands: inside brackets, in a block, or in a block where a
sequence needs no indentation of its own. -/
inductive Context where
  | flow
  | block
  | indentless
  deriving DecidableEq

/-- The tokens at which the next element between brackets starts. A comma stands
between two elements, and one may follow the last. -/
def elementTokens? (isFirst : Bool) (closing : Token) : List Token → Option (List Token)
  | [] => none
  | token :: rest =>
      if isFirst || token == closing then some (token :: rest)
      else if token == .flowEntry then some rest
      else none

mutual

/-- One node. No node takes more steps than the fuel counts. -/
def read (fuel : Nat) (context : Context) (tokens : List Token) : Option (Node × List Token) :=
  match fuel, tokens with
  | 0, _ => none
  | _, [] => none
  | _ + 1, .scalar text isPlain :: rest => some (.scalar text isPlain, rest)
  | fuel + 1, .flowSequenceStart :: rest => do
      let (elements, left) ← readFlowSequence fuel true rest
      some (.sequence elements, left)
  | fuel + 1, .flowMappingStart :: rest => do
      let (members, left) ← readFlowMapping fuel true rest
      some (.mapping members, left)
  | fuel + 1, .blockSequenceStart :: rest =>
      if context = .flow then none
      else do
        let (elements, left) ← readBlockSequence fuel rest
        some (.sequence elements, left)
  | fuel + 1, .blockMappingStart :: rest =>
      if context = .flow then none
      else do
        let (members, left) ← readBlockMapping fuel rest
        some (.mapping members, left)
  | fuel + 1, .blockEntry :: rest =>
      if context = .indentless then do
        let (elements, left) ← readIndentless fuel (.blockEntry :: rest)
        some (.sequence elements, left)
      else none
  | _, _ => none

/-- A node, or nothing in front of a token that stops. -/
def readUnless (fuel : Nat) (stops : Stops) (context : Context) (tokens : List Token) :
    Option (Node × List Token) :=
  match fuel with
  | 0 => none
  | fuel + 1 =>
      if tokens.head?.any stops then some (nothing, tokens) else read fuel context tokens

/-- A node behind a colon, or nothing where there is no colon. -/
def readValue (fuel : Nat) (stops : Stops) (context : Context) (tokens : List Token) :
    Option (Node × List Token) :=
  match fuel, tokens with
  | 0, _ => none
  | fuel + 1, .value :: rest => readUnless fuel stops context rest
  | _ + 1, tokens => some (nothing, tokens)

def readBlockSequence (fuel : Nat) (tokens : List Token) : Option (List Node × List Token) :=
  match fuel, tokens with
  | 0, _ => none
  | fuel + 1, .blockEntry :: rest => do
      let (element, left) ← readUnless fuel blockSequenceStops .block rest
      let (others, left) ← readBlockSequence fuel left
      some (element :: others, left)
  | _ + 1, .blockEnd :: rest => some ([], rest)
  | _ + 1, _ => none

def readIndentless (fuel : Nat) (tokens : List Token) : Option (List Node × List Token) :=
  match fuel, tokens with
  | 0, _ => none
  | fuel + 1, .blockEntry :: rest => do
      let (element, left) ← readUnless fuel indentlessStops .block rest
      let (others, left) ← readIndentless fuel left
      some (element :: others, left)
  | _ + 1, tokens => some ([], tokens)

def readBlockMapping (fuel : Nat) (tokens : List Token) :
    Option (List (Node × Node) × List Token) :=
  match fuel, tokens with
  | 0, _ => none
  | fuel + 1, .key :: rest => do
      let (key, left) ← readUnless fuel blockStops .indentless rest
      let (value, left) ← readValue fuel blockStops .indentless left
      let (others, left) ← readBlockMapping fuel left
      some ((key, value) :: others, left)
  | _ + 1, .blockEnd :: rest => some ([], rest)
  | _ + 1, _ => none

/-- The elements up to the closing bracket. A key among them makes a mapping of
one member. -/
def readFlowSequence (fuel : Nat) (isFirst : Bool) (tokens : List Token) :
    Option (List Node × List Token) :=
  match fuel, elementTokens? isFirst .flowSequenceEnd tokens with
  | 0, _ => none
  | _, none => none
  | _ + 1, some (.flowSequenceEnd :: rest) => some ([], rest)
  | fuel + 1, some (.key :: rest) => do
      let (key, left) ←
        if rest.head?.any fun token => token == .value || sequenceStops token then
          some (nothing, rest.drop 1)
        else read fuel .flow rest
      let (value, left) ← readValue fuel sequenceStops .flow left
      let (others, left) ← readFlowSequence fuel false left
      some (.mapping [(key, value)] :: others, left)
  | fuel + 1, some tokens => do
      let (element, left) ← read fuel .flow tokens
      let (others, left) ← readFlowSequence fuel false left
      some (element :: others, left)

/-- The members up to the closing bracket. A node that is not marked as a key has
no value. -/
def readFlowMapping (fuel : Nat) (isFirst : Bool) (tokens : List Token) :
    Option (List (Node × Node) × List Token) :=
  match fuel, elementTokens? isFirst .flowMappingEnd tokens with
  | 0, _ => none
  | _, none => none
  | _ + 1, some (.flowMappingEnd :: rest) => some ([], rest)
  | fuel + 1, some (.key :: rest) => do
      let (key, left) ←
        readUnless fuel (fun token => token == .value || mappingStops token) .flow rest
      let (value, left) ← readValue fuel mappingStops .flow left
      let (others, left) ← readFlowMapping fuel false left
      some ((key, value) :: others, left)
  | fuel + 1, some tokens => do
      let (key, left) ← read fuel .flow tokens
      let (others, left) ← readFlowMapping fuel false left
      some ((key, nothing) :: others, left)

end

/-- Steps that are enough for a list of tokens. -/
def stepBound (tokens : List Token) : Nat := 4 * tokens.length + 4

def readAll (tokens : List Token) : Option (Node × List Token) :=
  read (stepBound tokens) .block tokens

def readMarked (tokens : List Token) : Option (Node × List Token) :=
  if tokens.head?.all fun token => token == .documentStart || token == .documentEnd then
    some (nothing, tokens)
  else readAll tokens

def ofTokens? (tokens : List Token) : Option Node :=
  let reading := match tokens with
    | .documentStart :: rest => readMarked rest
    | tokens => readAll tokens
  match reading with
  | none => none
  | some (node, rest) => if rest.all (· == .documentEnd) then some node else none

def ofText? (text : String) : Option Node := (Token.scan text).bind ofTokens?

end Node

end RomLayout.Yaml
