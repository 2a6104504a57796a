import RomLayout.Json.Basic
import RomLayout.Numeral

set_option autoImplicit false

/-!
JSON as text. `Json.pretty` writes a value over several lines, two blanks for each
level; `Json.ofText?` reads any JSON text with any white space.
-/

namespace RomLayout.Json

/-- A character of a string, or a 16 bit code that an escape names. -/
inductive TextUnit where
  | character (value : Char)
  | code (value : Nat)
  deriving DecidableEq

namespace TextUnit

def isHighSurrogate (code : Nat) : Bool := 0xD800 ≤ code && code < 0xDC00

def isLowSurrogate (code : Nat) : Bool := 0xDC00 ≤ code && code < 0xE000

def pair (high low : Nat) : Char :=
  Char.ofNat (0x10000 + (high - 0xD800) * 0x400 + (low - 0xDC00))

/-- The characters of a string, if every surrogate stands in a pair. -/
def characters? : List TextUnit → Option (List Char)
  | [] => some []
  | .character value :: rest => (characters? rest).map (value :: ·)
  | .code value :: rest =>
      if isHighSurrogate value then
        match rest with
        | .code low :: others =>
            if isLowSurrogate low then (characters? others).map (pair value low :: ·) else none
        | _ => none
      else if isLowSurrogate value then none
      else (characters? rest).map (Char.ofNat value :: ·)

def escape? : Char → Option Char
  | '"' => some '"'
  | '\\' => some '\\'
  | '/' => some '/'
  | 'b' => some '\x08'
  | 'f' => some '\x0c'
  | 'n' => some '\n'
  | 'r' => some '\r'
  | 't' => some '\t'
  | _ => none

/-- The first character that may stand in a string as it is. -/
def firstPlain : Char := ' '

/-- What stands before the closing quote, and the text behind it. -/
def scan : List Char → Option (List TextUnit × List Char)
  | [] => none
  | '"' :: rest => some ([], rest)
  | '\\' :: 'u' :: first :: second :: third :: fourth :: rest =>
      match Numeral.toNat? 16 [first, second, third, fourth] with
      | some value => (scan rest).map fun (units, left) => (.code value :: units, left)
      | none => none
  | '\\' :: letter :: rest =>
      match escape? letter with
      | some value => (scan rest).map fun (units, left) => (.character value :: units, left)
      | none => none
  | value :: rest =>
      if value < firstPlain then none
      else (scan rest).map fun (units, left) => (.character value :: units, left)

end TextUnit

def escaped (character : Char) : List Char :=
  match character with
  | '"' => ['\\', '"']
  | '\\' => ['\\', '\\']
  | '\x08' => ['\\', 'b']
  | '\x0c' => ['\\', 'f']
  | '\n' => ['\\', 'n']
  | '\r' => ['\\', 'r']
  | '\t' => ['\\', 't']
  | _ =>
      if character < TextUnit.firstPlain then
        ['\\', 'u', '0', '0', Nat.digitChar (character.toNat / 16),
          Nat.digitChar (character.toNat % 16)]
      else [character]

/-- A string in quotes. A missing text is written as half of a surrogate pair. -/
def quoted (text : Option String) : List Char :=
  match text with
  | some text => '"' :: (text.toList.flatMap escaped ++ ['"'])
  | none => "\"\\ud800\"".toList

/-- A new line, with two blanks for each level. -/
def newLine (level : Nat) : List Char := '\n' :: List.replicate (2 * level) ' '

mutual

def prettyAt (level : Nat) : Json → List Char
  | null => "null".toList
  | boolean true => "true".toList
  | boolean false => "false".toList
  | number literal => literal
  | string text => quoted text
  | array [] => "[]".toList
  | array (element :: others) =>
      '[' :: (newLine (level + 1) ++ prettyAt (level + 1) element ++ prettyElements level others)
  | object [] => ['\x7b', '\x7d']
  | object ((name, value) :: others) =>
      '\x7b' :: (newLine (level + 1) ++ quoted name ++ ": ".toList
        ++ prettyAt (level + 1) value ++ prettyMembers level others)

def prettyElements (level : Nat) : List Json → List Char
  | [] => newLine level ++ [']']
  | element :: others =>
      ',' :: (newLine (level + 1) ++ prettyAt (level + 1) element ++ prettyElements level others)

def prettyMembers (level : Nat) : List (Option String × Json) → List Char
  | [] => newLine level ++ ['\x7d']
  | (name, value) :: others =>
      ',' :: (newLine (level + 1) ++ quoted name ++ ": ".toList
        ++ prettyAt (level + 1) value ++ prettyMembers level others)

end

def pretty (value : Json) : String := String.ofList (value.prettyAt 0)

def isSpace (character : Char) : Bool :=
  character == ' ' || character == '\n' || character == '\t' || character == '\r'

/-- What follows a run of at least one digit. -/
def digitsEnd? : List Char → Option (List Char)
  | [] => none
  | first :: rest => if first.isDigit then some (rest.dropWhile Char.isDigit) else none

/-- What follows the whole part of a number, which has no zero in front. -/
def wholeEnd? : List Char → Option (List Char)
  | '0' :: rest => some rest
  | text => digitsEnd? text

def fractionEnd? : List Char → Option (List Char)
  | '.' :: rest => digitsEnd? rest
  | text => some text

def exponentEnd? : List Char → Option (List Char)
  | [] => some []
  | mark :: rest =>
      if mark == 'e' || mark == 'E' then
        match rest with
        | '+' :: digits => digitsEnd? digits
        | '-' :: digits => digitsEnd? digits
        | digits => digitsEnd? digits
      else some (mark :: rest)

def numberEnd? (text : List Char) : Option (List Char) :=
  let unsigned := match text with
    | '-' :: rest => rest
    | rest => rest
  ((wholeEnd? unsigned).bind fractionEnd?).bind exponentEnd?

namespace Token

/-- The first token of a text that does not start with white space, and what
follows it. -/
def first? : List Char → Option (Token × List Char)
  | '[' :: rest => some (.beginArray, rest)
  | ']' :: rest => some (.endArray, rest)
  | '\x7b' :: rest => some (.beginObject, rest)
  | '\x7d' :: rest => some (.endObject, rest)
  | ',' :: rest => some (.comma, rest)
  | ':' :: rest => some (.colon, rest)
  | 'n' :: 'u' :: 'l' :: 'l' :: rest => some (.null, rest)
  | 't' :: 'r' :: 'u' :: 'e' :: rest => some (.boolean true, rest)
  | 'f' :: 'a' :: 'l' :: 's' :: 'e' :: rest => some (.boolean false, rest)
  | '"' :: rest =>
      (TextUnit.scan rest).map fun (units, left) =>
        (.string ((TextUnit.characters? units).map String.ofList), left)
  | text =>
      (numberEnd? text).map fun left =>
        (.number (text.take (text.length - left.length)), left)

def scan (text : List Char) : Option (List Token) :=
  match text with
  | [] => some []
  | character :: rest =>
      if isSpace character then scan rest
      else match first? (character :: rest) with
        | none => none
        | some (token, left) =>
            if _shorter : left.length < (character :: rest).length then
              (scan left).map (token :: ·)
            else none
termination_by text.length
decreasing_by
  · exact Nat.lt_succ_self rest.length
  · exact _shorter

end Token

/-- The value of a text that holds one value and white space. -/
def ofText? (text : String) : Option Json := (Token.scan text.toList).bind ofTokens?

end RomLayout.Json
