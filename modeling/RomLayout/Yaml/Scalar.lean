import RomLayout.Numeral

set_option autoImplicit false

/-!
The text of YAML scalars: plain, in single quotes and in double quotes. White
space inside a scalar is folded where it goes over a line: one line break becomes a
blank, and of several breaks the first is dropped.
-/

namespace RomLayout.Yaml

def lineSeparator : Char := '\u2028'

def paragraphSeparator : Char := '\u2029'

def nextLine : Char := '\u0085'

def isBreak (character : Char) : Bool :=
  character == '\n' || character == '\r' || character == nextLine
    || character == lineSeparator || character == paragraphSeparator

def isBlank (character : Char) : Bool := character == ' ' || character == '\t'

def isWhite (character : Char) : Bool := isBlank character || isBreak character

def isPrintable (character : Char) : Bool :=
  let code := character.toNat
  code == 0x09 || code == 0x0A || code == 0x0D || (0x20 ≤ code && code ≤ 0x7E) || code == 0x85
    || (0xA0 ≤ code && code ≤ 0xD7FF) || (0xE000 ≤ code && code ≤ 0xFFFD && code != 0xFEFF)
    || 0x10000 ≤ code

/-- Whether a word ends here: at white space or at the end of the text. -/
def endsWord : List Char → Bool
  | [] => true
  | character :: _ => isWhite character

def isDocumentMark : List Char → Bool
  | '-' :: '-' :: '-' :: rest => endsWord rest
  | '.' :: '.' :: '.' :: rest => endsWord rest
  | _ => false

/-- The line breaks in white space. All are new lines but the two separators. -/
def breaks : List Char → List Char
  | [] => []
  | '\r' :: '\n' :: rest => '\n' :: breaks rest
  | character :: rest =>
      if character = lineSeparator ∨ character = paragraphSeparator then
        character :: breaks rest
      else if isBreak character then '\n' :: breaks rest
      else breaks rest

/-- What white space between two words stands for. -/
def fold (white : List Char) : List Char :=
  match breaks white with
  | [] => white
  | ['\n'] => [' ']
  | '\n' :: others => others
  | all => all

/-- The column behind white space that goes over a line. -/
def columnAfter (white : List Char) : Option Nat :=
  if white.any isBreak then some (white.reverse.takeWhile isBlank).length else none

/-- Whether a later line of white space has a tab to the left of a column. -/
def tabsBefore (indent : Nat) : Option Nat → List Char → Bool
  | _, [] => false
  | column, character :: rest =>
      if isBreak character then tabsBefore indent (some 0) rest
      else match column with
        | none => tabsBefore indent none rest
        | some column =>
            (character == '\t' && column < indent) || tabsBefore indent (some (column + 1)) rest

def meetsDocumentMark (white next : List Char) : Bool :=
  columnAfter white == some 0 && isDocumentMark next

theorem length_dropWhile_le (test : Char → Bool) (text : List Char) :
    (text.dropWhile test).length ≤ text.length :=
  (List.dropWhile_suffix test).length_le

namespace Plain

def isFlowMark (character : Char) : Bool :=
  character == ',' || character == '[' || character == ']' || character == '\x7b'
    || character == '\x7d'

/-- Inside brackets, no colon may stand in front of these. -/
def clashes : List Char → Bool
  | [] => false
  | character :: _ => isFlowMark character || character == '?'

/-- The longest run without white space that belongs to a plain scalar, and what
follows it. -/
def run (inFlow : Bool) : List Char → Option (List Char × List Char)
  | [] => some ([], [])
  | character :: rest =>
      if isWhite character then some ([], character :: rest)
      else if inFlow && character == ':' && clashes rest then none
      else if character == ':' && endsWord rest || inFlow && isFlowMark character then
        some ([], character :: rest)
      else (run inFlow rest).map fun (word, left) => (character :: word, left)

/-- A plain scalar whose later lines stand at `indent` or behind it, what follows
it, and whether it ends with a line break. -/
def scan (inFlow : Bool) (indent : Nat) (text : List Char) :
    Option (List Char × List Char × Bool) :=
  match run inFlow text with
  | none => none
  | some (word, rest) =>
      let white := rest.takeWhile isWhite
      let next := rest.dropWhile isWhite
      let column := columnAfter white
      if white = [] then some (word, rest, false)
      else if tabsBefore indent none white then none
      else if (!inFlow && column.any (· < indent)) || meetsDocumentMark white next
          || next.head? == some '#' then
        some (word, next, column.isSome)
      else if _shorter : next.length < text.length then
        match scan inFlow indent next with
        | none => none
        | some ([], _) => some (word, next, column.isSome)
        | some (more, left) => some (word ++ fold white ++ more, left)
      else none
termination_by text.length

end Plain

namespace SingleQuoted

/-- The text up to the closing quote, and what follows it. -/
def scan : List Char → Option (List Char × List Char)
  | [] => none
  | '\'' :: '\'' :: rest => (scan rest).map fun (text, left) => ('\'' :: text, left)
  | '\'' :: rest => some ([], rest)
  | character :: rest =>
      if isWhite character then
        let white := character :: rest.takeWhile isWhite
        let next := rest.dropWhile isWhite
        if meetsDocumentMark white next then none
        else (scan next).map fun (text, left) => (fold white ++ text, left)
      else (scan rest).map fun (text, left) => (character :: text, left)
termination_by text => text.length
decreasing_by
  all_goals
    simp_wf
    try have := length_dropWhile_le isWhite rest
    try omega

end SingleQuoted

namespace DoubleQuoted

def character? (value : Nat) : Option Char :=
  if value.isValidChar then some (Char.ofNat value) else none

/-- The character of an escape with so many hexadecimal digits. -/
def hexadecimal? (count : Nat) (text : List Char) : Option (Char × List Char) :=
  if text.length < count then none
  else ((Numeral.toNat? 16 (text.take count)).bind character?).map fun character =>
    (character, text.drop count)

def escape? : List Char → Option (Char × List Char)
  | '0' :: rest => some ('\x00', rest)
  | 'a' :: rest => some ('\x07', rest)
  | 'b' :: rest => some ('\x08', rest)
  | 't' :: rest => some ('\t', rest)
  | '\t' :: rest => some ('\t', rest)
  | 'n' :: rest => some ('\n', rest)
  | 'v' :: rest => some ('\x0b', rest)
  | 'f' :: rest => some ('\x0c', rest)
  | 'r' :: rest => some ('\r', rest)
  | 'e' :: rest => some ('\x1b', rest)
  | ' ' :: rest => some (' ', rest)
  | '"' :: rest => some ('"', rest)
  | '/' :: rest => some ('/', rest)
  | '\\' :: rest => some ('\\', rest)
  | 'N' :: rest => some (nextLine, rest)
  | '_' :: rest => some ('\u00a0', rest)
  | 'L' :: rest => some (lineSeparator, rest)
  | 'P' :: rest => some (paragraphSeparator, rest)
  | 'x' :: rest => hexadecimal? 2 rest
  | 'u' :: rest => hexadecimal? 4 rest
  | 'U' :: rest => hexadecimal? 8 rest
  | _ => none

/-- The text up to the closing quote, and what follows it. -/
def scan (text : List Char) : Option (List Char × List Char) :=
  match text with
  | [] => none
  | '"' :: rest => some ([], rest)
  | '\\' :: rest =>
      if rest.head?.any isBreak then
        let white := rest.takeWhile isWhite
        let next := rest.dropWhile isWhite
        if meetsDocumentMark white next then none
        else (scan next).map fun (text, left) => ((breaks white).drop 1 ++ text, left)
      else match escape? rest with
        | none => none
        | some (character, after) =>
            if _shorter : after.length < rest.length then
              (scan after).map fun (text, left) => (character :: text, left)
            else none
  | character :: rest =>
      if isWhite character then
        let white := character :: rest.takeWhile isWhite
        let next := rest.dropWhile isWhite
        if meetsDocumentMark white next then none
        else (scan next).map fun (text, left) => (fold white ++ text, left)
      else (scan rest).map fun (text, left) => (character :: text, left)
termination_by text.length
decreasing_by
  all_goals
    simp_wf
    try have := length_dropWhile_le isWhite rest
    try omega

end DoubleQuoted

end RomLayout.Yaml
