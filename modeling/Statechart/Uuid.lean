/-!
# Universally unique identifiers

An identifier is sixteen bytes. It is written as hexadecimal digits in five groups
joined by hyphens, and read from that form, from bare digits, or from the grouped form
in braces or behind the `urn:uuid:` marker. Digits and marker may be in either case.
-/

namespace Statechart

/-- A universally unique identifier. -/
structure Uuid where
  /-- The sixteen bytes, first to last. -/
  bytes : List UInt8
  /-- There are sixteen of them. -/
  length_bytes : bytes.length = 16
  deriving DecidableEq

namespace Uuid

/-- The identifier whose bytes are all zero. -/
def nil : Uuid := ⟨List.replicate 16 0, rfl⟩

/-- The identifier made of sixteen bytes. -/
def ofBytes? (bytes : List UInt8) : Option Uuid :=
  if sixteen : bytes.length = 16 then some ⟨bytes, sixteen⟩ else none

/-- The identifier whose bytes spell a number in base 256, the most significant first. -/
def ofNat (number : Nat) : Uuid :=
  ⟨(List.range 16).map fun place => (number / Nat.pow 256 (15 - place)).toUInt8, rfl⟩

/-- The hexadecimal digit for a value below sixteen. -/
def hexDigit (value : Nat) : Char :=
  if value < 10 then Char.ofNat (48 + value) else Char.ofNat (87 + value)

/-- The value of a hexadecimal digit of either case. -/
def hexValue? (digit : Char) : Option Nat :=
  let code := digit.toNat
  if 48 ≤ code ∧ code ≤ 57 then some (code - 48)
  else if 97 ≤ code ∧ code ≤ 102 then some (code - 87)
  else if 65 ≤ code ∧ code ≤ 70 then some (code - 55)
  else none

/-- The two digits of a byte. -/
def byteDigits (byte : UInt8) : List Char :=
  [hexDigit (byte.toNat / 16), hexDigit (byte.toNat % 16)]

/-- The bytes spelled by pairs of digits. -/
def bytesOfDigits? : List Char → Option (List UInt8)
  | [] => some []
  | [_] => none
  | high :: low :: others => do
      let upper ← hexValue? high
      let lower ← hexValue? low
      let bytes ← bytesOfDigits? others
      pure ((16 * upper + lower).toUInt8 :: bytes)

/-- The grouped form in lower case. -/
def toChars (identifier : Uuid) : List Char :=
  let group (start count : Nat) : List Char :=
    ((identifier.bytes.drop start).take count).flatMap byteDigits
  group 0 4 ++ '-' :: group 4 2 ++ '-' :: group 6 2 ++ '-' :: group 8 2 ++ '-' :: group 10 6

/-- The grouped form as a text. -/
def toText (identifier : Uuid) : String :=
  String.ofList identifier.toChars

/-- Reads the grouped form. -/
def ofGrouped? (characters : List Char) : Option Uuid :=
  let hyphenAt (place : Nat) : Bool := characters[place]? == some '-'
  if characters.length = 36 ∧ hyphenAt 8 ∧ hyphenAt 13 ∧ hyphenAt 18 ∧ hyphenAt 23 then
    let digits := characters.take 8 ++ (characters.drop 9).take 4 ++
      (characters.drop 14).take 4 ++ (characters.drop 19).take 4 ++ characters.drop 24
    (bytesOfDigits? digits).bind ofBytes?
  else none

/-- Reads an identifier in any of its written forms. -/
def ofChars? (characters : List Char) : Option Uuid :=
  let marker := ['u', 'r', 'n', ':', 'u', 'u', 'i', 'd', ':']
  match characters.length with
  | 32 => (bytesOfDigits? characters).bind ofBytes?
  | 36 => ofGrouped? characters
  | 38 =>
      if characters.head? = some '\x7b' ∧ characters.getLast? = some '\x7d' then
        ofGrouped? ((characters.drop 1).take 36)
      else none
  | 45 =>
      if (characters.take 9).map Char.toLower = marker then ofGrouped? (characters.drop 9)
      else none
  | _ => none

/-- Reads an identifier from a text in any of its written forms. -/
def ofText? (text : String) : Option Uuid :=
  ofChars? text.toList

end Uuid
end Statechart
