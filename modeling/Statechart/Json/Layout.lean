/-!
# Writing JSON

A layout decides where a written document has line breaks. The compact layout has none.
The indented layout gives every item and member a line of its own, two spaces further in
than what encloses it.
-/

namespace Statechart
namespace Json

/-- Where a written document has blanks. -/
inductive Layout
  | compact
  | indented
  deriving DecidableEq

/-- How one character appears in a written text. Quotes, backslashes and control
characters are escaped. -/
def escape (character : Char) : List Char :=
  if character = '"' then ['\\', '"']
  else if character = '\\' then ['\\', '\\']
  else if character = '\x08' then ['\\', 'b']
  else if character = '\x0c' then ['\\', 'f']
  else if character = '\n' then ['\\', 'n']
  else if character = '\r' then ['\\', 'r']
  else if character = '\t' then ['\\', 't']
  else if character.toNat < 0x20 then
    let digits := Nat.toDigits 16 character.toNat
    ['\\', 'u'] ++ List.replicate (4 - digits.length) '0' ++ digits
  else [character]

/-- A text between quotes. -/
def writeText (text : String) : List Char :=
  '"' :: text.toList.flatMap escape ++ ['"']

/-- A natural number in decimal digits. -/
def writeNatural (number : Nat) : List Char :=
  Nat.toDigits 10 number

/-- The literal for an absent value. -/
def null : List Char := ['n', 'u', 'l', 'l']

/-- An optional value, absent as the null literal. -/
def writeOptional (write : α → List Char) : Option α → List Char
  | none => null
  | some value => write value

/-- Parts joined by a separator. -/
def joined (separator : List Char) : List (List Char) → List Char
  | [] => []
  | [part] => part
  | part :: parts => part ++ separator ++ joined separator parts

namespace Layout

/-- The break before an item at some depth. -/
def lineBreak : Layout → Nat → List Char
  | .compact, _ => []
  | .indented, depth => '\n' :: List.replicate (2 * depth) ' '

/-- What stands between a key and its value. -/
def colon : Layout → List Char
  | .compact => [':']
  | .indented => [':', ' ']

/-- Parts between brackets, at the depth of what encloses them. An empty pair of
brackets stays on its line. -/
def enclose
    (layout : Layout)
    (depth : Nat)
    (opening closing : Char)
    (parts : List (List Char)) : List Char :=
  if parts.isEmpty then [opening, closing]
  else
    opening :: layout.lineBreak (depth + 1) ++
      joined (',' :: layout.lineBreak (depth + 1)) parts ++
      layout.lineBreak depth ++ [closing]

/-- A list of values. Each is written one level deeper than the list. -/
def writeList
    (layout : Layout)
    (depth : Nat)
    (write : Nat → α → List Char)
    (values : List α) : List Char :=
  layout.enclose depth '[' ']' (values.map (write (depth + 1)))

/-- An object with the given members. Each value is written one level deeper than the
object. -/
def writeObject
    (layout : Layout)
    (depth : Nat)
    (members : List (String × (Nat → List Char))) : List Char :=
  layout.enclose depth '\x7b' '\x7d'
    (members.map fun member =>
      writeText member.1 ++ layout.colon ++ member.2 (depth + 1))

end Layout
end Json
end Statechart
