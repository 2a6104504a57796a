set_option autoImplicit false

/-!
JSON values and their tokens. Members keep their order and may repeat a name, and
numbers are kept as they are written.

A text is missing where an escape names half of a surrogate pair: such a string
follows the grammar but holds no characters.
-/

namespace RomLayout

inductive Json where
  | null
  | boolean (value : Bool)
  | number (literal : List Char)
  | string (text : Option String)
  | array (elements : List Json)
  | object (members : List (Option String × Json))

namespace Json

inductive Token where
  | beginArray
  | endArray
  | beginObject
  | endObject
  | comma
  | colon
  | null
  | boolean (value : Bool)
  | number (literal : List Char)
  | string (text : Option String)
  deriving DecidableEq

mutual

def tokens : Json → List Token
  | null => [.null]
  | boolean value => [.boolean value]
  | number literal => [.number literal]
  | string text => [.string text]
  | array [] => [.beginArray, .endArray]
  | array (element :: others) =>
      .beginArray :: (element.tokens ++ elementTokens others)
  | object [] => [.beginObject, .endObject]
  | object ((name, value) :: others) =>
      .beginObject :: .string name :: .colon :: (value.tokens ++ memberTokens others)

/-- The tokens behind the first element of an array. -/
def elementTokens : List Json → List Token
  | [] => [.endArray]
  | element :: others => .comma :: (element.tokens ++ elementTokens others)

/-- The tokens behind the first member of an object. -/
def memberTokens : List (Option String × Json) → List Token
  | [] => [.endObject]
  | (name, value) :: others =>
      .comma :: .string name :: .colon :: (value.tokens ++ memberTokens others)

end

/-- What an open bracket has met so far, the latest first. -/
inductive Frame where
  | array (elements : List Json)
  | object (members : List (Option String × Json)) (name : Option String)

inductive State where
  | ready (frames : List Frame)
  | elementOrEnd (frames : List Frame)
  | memberOrEnd (frames : List Frame)
  | member (frames : List Frame) (members : List (Option String × Json))
  | colon (frames : List Frame) (members : List (Option String × Json)) (name : Option String)
  /-- A value is complete; its bracket goes on or ends. -/
  | complete (frames : List Frame) (value : Json)

namespace State

/-- A token where a value has to start. -/
def start (frames : List Frame) : Token → Option State
  | .null => some (.complete frames .null)
  | .boolean value => some (.complete frames (.boolean value))
  | .number literal => some (.complete frames (.number literal))
  | .string text => some (.complete frames (.string text))
  | .beginArray => some (.elementOrEnd frames)
  | .beginObject => some (.memberOrEnd frames)
  | _ => none

def step : State → Token → Option State
  | .ready frames, token => start frames token
  | .elementOrEnd frames, .endArray => some (.complete frames (.array []))
  | .elementOrEnd frames, token => start (.array [] :: frames) token
  | .memberOrEnd frames, .endObject => some (.complete frames (.object []))
  | .memberOrEnd frames, .string name => some (.colon frames [] name)
  | .member frames members, .string name => some (.colon frames members name)
  | .colon frames members name, .colon => some (.ready (.object members name :: frames))
  | .complete (.array elements :: frames) value, .comma =>
      some (.ready (.array (value :: elements) :: frames))
  | .complete (.array elements :: frames) value, .endArray =>
      some (.complete frames (.array (value :: elements).reverse))
  | .complete (.object members name :: frames) value, .comma =>
      some (.member frames ((name, value) :: members))
  | .complete (.object members name :: frames) value, .endObject =>
      some (.complete frames (.object ((name, value) :: members).reverse))
  | _, _ => none

end State

def ofTokens? (tokens : List Token) : Option Json :=
  match tokens.foldlM State.step (.ready []) with
  | some (.complete [] value) => some value
  | _ => none

end Json

end RomLayout
