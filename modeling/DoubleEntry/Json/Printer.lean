import DoubleEntry.Json.Value
import DoubleEntry.Text.Hex

/-! # Writing JSON

Compact text. In strings the quote, the backslash and the characters below the space are escaped,
and nothing else.
-/

namespace DoubleEntry.Json

/-- A character inside a string. -/
def escapedChar (c : Char) : List Char :=
  if c = '"' ∨ c = '\\' then ['\\', c]
  else if c = '\x08' then ['\\', 'b']
  else if c = '\t' then ['\\', 't']
  else if c = '\n' then ['\\', 'n']
  else if c = '\x0c' then ['\\', 'f']
  else if c = '\r' then ['\\', 'r']
  else if c.toNat < 32 then ['\\', 'u'] ++ Text.hexDigits 4 c.toNat
  else [c]

def stringChars (text : String) : List Char :=
  '"' :: text.toList.flatMap escapedChar ++ ['"']

mutual

/-- The text of a value. A string without content is written as an empty one. -/
def chars : Json → List Char
  | .null => ['n', 'u', 'l', 'l']
  | .bool true => ['t', 'r', 'u', 'e']
  | .bool false => ['f', 'a', 'l', 's', 'e']
  | .number numeral => numeral.chars
  | .string content => stringChars (content.getD "")
  | .array [] => ['[', ']']
  | .array (first :: rest) => '[' :: first.chars ++ elementsChars rest ++ [']']
  | .object [] => ['\x7b', '\x7d']
  | .object ((name, value) :: rest) =>
    '\x7b' :: stringChars (name.getD "") ++ ':' :: value.chars ++ membersChars rest ++ ['\x7d']

/-- Further elements, each after a comma. -/
def elementsChars : List Json → List Char
  | [] => []
  | value :: rest => ',' :: value.chars ++ elementsChars rest

/-- Further members, each after a comma. -/
def membersChars : List (Option String × Json) → List Char
  | [] => []
  | (name, value) :: rest =>
    ',' :: stringChars (name.getD "") ++ ':' :: value.chars ++ membersChars rest

end

def text (json : Json) : String := String.ofList json.chars

end DoubleEntry.Json
