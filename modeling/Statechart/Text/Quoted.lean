import Statechart.Text.Invisible

/-!
# Quoted text

The form in which a text is shown to a reader of error messages and log records:
between double quotes, with an escape for everything that would not be seen as it is.
-/

namespace Statechart
namespace Text
namespace Quoted

/-- The escape that names a character by its code point in hexadecimal. -/
def codePoint (character : Char) : List Char :=
  ['\\', 'u', '\x7b'] ++ Nat.toDigits 16 character.toNat ++ ['\x7d']

/-- How one character appears between the quotes. -/
def escape (character : Char) : List Char :=
  if character = '"' then ['\\', '"']
  else if character = '\\' then ['\\', '\\']
  else if character = '\n' then ['\\', 'n']
  else if character = '\r' then ['\\', 'r']
  else if character = '\t' then ['\\', 't']
  else if character = '\x00' then ['\\', '0']
  else if isInvisible character then codePoint character
  else [character]

/-- A text between quotes. -/
def encode (text : String) : String :=
  String.ofList ('"' :: text.toList.flatMap escape ++ ['"'])

end Quoted
end Text
end Statechart
