import RomLayout.Description.Basic

set_option autoImplicit false

/-!
Layout descriptions as YAML on one line: mappings and lists in brackets, fields by
name, and every text in double quotes. A field that is absent is left out.
-/

namespace RomLayout

namespace Yaml

def escapeWidth : Nat := 8

def isPlainAscii (character : Char) : Bool :=
  ' ' ≤ character && character ≤ '~' && character != '"' && character != '\\'

def escaped (character : Char) : List Char :=
  if isPlainAscii character then [character]
  else
    let digits := Numeral.ofNat 16 character.toNat
    '\\' :: 'U' :: (List.replicate (escapeWidth - digits.length) '0' ++ digits)

def quoted (text : String) : List Char := '"' :: (text.toList.flatMap escaped ++ ['"'])

def decimal (value : Nat) : List Char := Numeral.ofNat 10 value

def signedDecimal (value : Int) : List Char :=
  if value < 0 then '-' :: decimal value.natAbs else decimal value.natAbs

def commaSeparated : List (List Char) → List Char
  | [] => []
  | [item] => item
  | item :: others => item ++ ',' :: ' ' :: commaSeparated others

def bracketed (items : List (List Char)) : List Char := '[' :: (commaSeparated items ++ [']'])

def braced (items : List (List Char)) : List Char :=
  '\x7b' :: (commaSeparated items ++ ['\x7d'])

def pair (key value : List Char) : List Char := key ++ ':' :: ' ' :: value

def field (name : String) (value : List Char) : List Char := pair name.toList value

/-- A field that is left out where there is no value. -/
def optionalField {Value : Type} (name : String) (write : Value → List Char)
    (value : Option Value) : List (List Char) :=
  (value.map fun value => field name (write value)).toList

end Yaml

open Yaml

namespace EntryDescription

def render : EntryDescription → List Char
  | label name => braced [field "label" (quoted name)]
  | instruction mnemonic size =>
      braced [field "instruction"
        (braced [field "mnemonic" (quoted mnemonic), field "size" (Yaml.decimal size.toNat)])]
  | data values size =>
      braced [field "data"
        (braced
          (field "values" (bracketed (values.map fun value => Yaml.decimal value.toNat))
            :: optionalField "size" (fun size : UInt64 => Yaml.decimal size.toNat) size))]
  | slot size => braced [field "variable" (Yaml.decimal size.toNat)]
  | binary text => braced [field "binary" (quoted text.text)]

end EntryDescription

namespace SectionDescription

def render (described : SectionDescription) : List Char :=
  braced
    (field "region" (quoted described.region)
      :: optionalField "bank" (fun bank : Int64 => signedDecimal bank.toInt) described.bank
      ++ optionalField "offset" (fun offset : UInt64 => Yaml.decimal offset.toNat)
          described.offset
      ++ [field "entries" (bracketed (described.entries.map EntryDescription.render))])

end SectionDescription

namespace FileDescription

def render (file : FileDescription) : List Char :=
  braced
    [ field "name" (quoted file.name),
      field "sections"
        (braced (file.sections.map fun (name, described) =>
          pair (quoted name) described.render)) ]

end FileDescription

namespace Description

def render (description : Description) : String :=
  String.ofList
    (braced [field "files" (bracketed (description.files.map FileDescription.render))])

end Description

end RomLayout
