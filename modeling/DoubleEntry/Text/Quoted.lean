import DoubleEntry.Text.Hex
import DoubleEntry.Text.Unprintable

/-! # Quoted text

How a message shows a text or a single character that somebody else supplied: between quotes, with
the quote itself, the backslash and what cannot be shown written as escapes.
-/

namespace DoubleEntry.Text

/-- A character as it stands between two `quote` characters. -/
def escaped (quote c : Char) : List Char :=
  if c = '\x00' then ['\\', '0']
  else if c = '\t' then ['\\', 't']
  else if c = '\r' then ['\\', 'r']
  else if c = '\n' then ['\\', 'n']
  else if c = '\\' ∨ c = quote then ['\\', c]
  else if isUnprintable c then ['\\', 'u', '\x7b'] ++ hex c.toNat ++ ['\x7d']
  else [c]

/-- A text in double quotes. -/
def quoted (text : String) : String :=
  String.ofList (['"'] ++ text.toList.flatMap (escaped '"') ++ ['"'])

/-- A character in single quotes. -/
def quotedChar (c : Char) : String :=
  String.ofList (['\''] ++ escaped '\'' c ++ ['\''])

end DoubleEntry.Text
