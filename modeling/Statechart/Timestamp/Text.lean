import Statechart.Text.Blank
import Statechart.Timestamp.Basic

/-!
# The text of a timestamp

Timestamps are written in the date and time format of the internet, in universal time,
with no fraction or with three, six or nine digits of it, whichever loses nothing. The
reader takes any offset from universal time and is lenient about blanks.
-/

namespace Statechart
namespace Timestamp

/-- The decimal digits of a number, with leading zeros up to a width. -/
def padded (width number : Nat) : List Char :=
  let digits := Nat.toDigits 10 number
  List.replicate (width - digits.length) '0' ++ digits

/-- A year of the first ten thousand has four digits. Any other has a sign and at least
four digits. -/
def yearChars (year : Int) : List Char :=
  if 0 ≤ year ∧ year ≤ 9999 then padded 4 year.toNat
  else (if year < 0 then '-' else '+') :: padded 4 year.natAbs

/-- The fraction of a second in the fewest groups of three digits that lose nothing. -/
def fractionChars (nanosecond : Nat) : List Char :=
  if nanosecond = 0 then []
  else if nanosecond % 1000000 = 0 then '.' :: padded 3 (nanosecond / 1000000)
  else if nanosecond % 1000 = 0 then '.' :: padded 6 (nanosecond / 1000)
  else '.' :: padded 9 nanosecond

/-- The written form. A leap second is written as second sixty. -/
def toChars (timestamp : Timestamp) : List Char :=
  let leap := timestamp.nanosecond / 1000000000
  yearChars timestamp.date.year ++ '-' :: padded 2 timestamp.date.month ++
    '-' :: padded 2 timestamp.date.day ++ 'T' :: padded 2 (timestamp.second / 3600) ++
    ':' :: padded 2 (timestamp.second / 60 % 60) ++
    ':' :: padded 2 (timestamp.second % 60 + leap) ++
    fractionChars (timestamp.nanosecond % 1000000000) ++ ['Z']

/-- The written form as a text. -/
def toText (timestamp : Timestamp) : String :=
  String.ofList timestamp.toChars

/-- The number that a list of digits spells. -/
def digitsValue (digits : List Char) : Nat :=
  digits.foldl (fun value digit => 10 * value + (digit.toNat - 48)) 0

/-- Reads a number of at least one digit, of at most `width` digits if a width is given.
Blanks may come first. -/
def readNumber (width : Option Nat) (characters : List Char) : Option (Nat × List Char) :=
  let start := Text.skipBlanks characters
  let window := match width with
    | none => start
    | some limit => start.take limit
  let digits := window.takeWhile Char.isDigit
  if digits.isEmpty then none
  else some (digitsValue digits, start.drop digits.length)

/-- Reads a year: four digits at most without a sign, any number of them with one. -/
def readYear (characters : List Char) : Option (Int × List Char) :=
  match Text.skipBlanks characters with
  | '-' :: rest => (unsigned rest).map fun (year, rest) => (-(year : Int), rest)
  | '+' :: rest => (unsigned rest).map fun (year, rest) => ((year : Int), rest)
  | start => (readNumber (some 4) start).map fun (year, rest) => ((year : Int), rest)
where
  /-- The digits of a signed year follow the sign at once. -/
  unsigned (characters : List Char) : Option (Nat × List Char) :=
    if (characters.head?.map Char.isDigit).getD false then readNumber none characters
    else none

/-- Reads a separator, with blanks before it. -/
def readSeparator (separator : Char) (characters : List Char) : Option (List Char) :=
  match Text.skipBlanks characters with
  | character :: rest => if character = separator then some rest else none
  | [] => none

/-- Reads the letter or space between date and time. -/
def readDivider : List Char → Option (List Char)
  | 'T' :: rest | 't' :: rest | ' ' :: rest => some rest
  | _ => none

/-- Reads a fraction in nanoseconds, if there is one. Digits after the ninth are
dropped. -/
def readFraction : List Char → Option (Nat × List Char)
  | '.' :: rest =>
      let digits := rest.takeWhile Char.isDigit
      let kept := digits.take 9
      if digits.isEmpty then none
      else some (digitsValue kept * Nat.pow 10 (9 - kept.length), rest.drop digits.length)
  | characters => some (0, characters)

/-- Reads the two digits of an offset. -/
def readPair : List Char → Option (Nat × List Char)
  | tens :: ones :: rest =>
      if tens.isDigit && ones.isDigit then some (digitsValue [tens, ones], rest) else none
  | _ => none

/-- Reads an offset from universal time in seconds: the letter Z, the name UTC, or hours
and minutes behind a sign, with any colons and blanks between them. -/
def readOffset (characters : List Char) : Option (Int × List Char) :=
  match Text.skipBlanks characters with
  | 'Z' :: rest | 'z' :: rest => some (0, rest)
  | sign :: rest =>
      if (sign :: rest.take 2).map Char.toUpper = ['U', 'T', 'C'] then some (0, rest.drop 2)
      else if sign = '+' then amount 1 rest
      else if sign = '-' ∨ sign = '−' then amount (-1) rest
      else none
  | [] => none
where
  /-- The hours and minutes behind the sign. -/
  amount (direction : Int) (characters : List Char) : Option (Int × List Char) := do
    let (hours, rest) ← readPair characters
    let rest := rest.dropWhile fun character => character == ':' || Text.isBlank character
    let (minutes, rest) ← readPair rest
    if minutes < 60 ∧ hours < 24 then
      some (direction * (3600 * hours + 60 * minutes : Nat), rest)
    else none

/-- Reads a timestamp. Second sixty is a leap second. -/
def ofChars? (characters : List Char) : Option Timestamp := do
  let (year, rest) ← readYear characters
  let rest ← readSeparator '-' rest
  let (month, rest) ← readNumber (some 2) rest
  let rest ← readSeparator '-' rest
  let (day, rest) ← readNumber (some 2) rest
  let rest ← readDivider rest
  let (hour, rest) ← readNumber (some 2) rest
  let rest ← readSeparator ':' rest
  let (minute, rest) ← readNumber (some 2) rest
  let rest ← readSeparator ':' rest
  let (second, rest) ← readNumber (some 2) rest
  let (fraction, rest) ← readFraction rest
  let (ahead, rest) ← readOffset rest
  if (Text.skipBlanks rest).isEmpty ∧ hour < 24 ∧ minute < 60 ∧ second ≤ 60 then
    let date ← Date.make? year month day
    let minutes := 60 * (60 * hour + minute)
    if second = 60 then ofLocal? date (minutes + 59) (1000000000 + fraction) ahead
    else ofLocal? date (minutes + second) fraction ahead
  else none

/-- Reads a timestamp from a text. -/
def ofText? (text : String) : Option Timestamp :=
  ofChars? text.toList

end Timestamp
end Statechart
