/-!
# Blank characters

The characters that Unicode gives the property of being white space. Readers that
allow blanks between the parts of a text skip exactly these.
-/

namespace Statechart
namespace Text

/-- White space in the sense of Unicode: the ASCII blanks, the next-line and no-break
spaces, and the space, line and paragraph separators. -/
def isBlank (character : Char) : Bool :=
  let code := character.toNat
  (0x09 ≤ code && code ≤ 0x0d) || code == 0x20 || code == 0x85 || code == 0xa0 ||
    code == 0x1680 || (0x2000 ≤ code && code ≤ 0x200a) || code == 0x2028 ||
    code == 0x2029 || code == 0x202f || code == 0x205f || code == 0x3000

/-- Drops the blanks at the front. -/
def skipBlanks (characters : List Char) : List Char :=
  characters.dropWhile isBlank

end Text
end Statechart
