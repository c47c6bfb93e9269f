import Statechart.Word

/-!
# A binary format

Numbers have a fixed width and start with their least significant byte. Texts and lists
start with their length in eight bytes. An optional value starts with a byte that is one
when the value follows and zero when it is absent. A reader takes what it needs from the
front and returns the rest.
-/

namespace Statechart
namespace Binary

/-- Takes a value from the front of some bytes. -/
abbrev Reader (α : Type) := List UInt8 → Option (α × List UInt8)

/-- Applies a partial function to what a reader takes. -/
def Reader.convert (conversion : α → Option β) (reader : Reader α) : Reader β :=
  fun bytes => do
    let (value, rest) ← reader bytes
    let converted ← conversion value
    pure (converted, rest)

/-- The given number of bytes of a number, the least significant first. -/
def writeNatural : Nat → Nat → List UInt8
  | 0, _ => []
  | width + 1, number => (number % 256).toUInt8 :: writeNatural width (number / 256)

/-- Takes a number of the given number of bytes. -/
def readNatural : Nat → Reader Nat
  | 0, bytes => some (0, bytes)
  | _ + 1, [] => none
  | width + 1, byte :: bytes => do
      let (higher, rest) ← readNatural width bytes
      pure (byte.toNat + 256 * higher, rest)

/-- Takes the given number of bytes. -/
def readBytes (count : Nat) : Reader (List UInt8) := fun bytes =>
  if bytes.length < count then none else some (bytes.take count, bytes.drop count)

/-- The bytes of a text in UTF-8. -/
def utf8 (text : String) : List UInt8 :=
  text.toUTF8.toList

/-- The text that bytes spell in UTF-8, if they are well formed. -/
def ofUtf8? (bytes : List UInt8) : Option String :=
  String.fromUTF8? bytes.toByteArray

/-- A run of bytes behind its length. -/
def writeRun (bytes : List UInt8) : List UInt8 :=
  writeNatural 8 bytes.length ++ bytes

/-- Takes a run of bytes behind its length. -/
def readRun : Reader (List UInt8) := fun bytes => do
  let (count, rest) ← readNatural 8 bytes
  readBytes count rest

/-- A text behind its length. -/
def writeText (text : String) : List UInt8 :=
  writeRun (utf8 text)

/-- Whether the length of a text fits into eight bytes. -/
def fitsText (text : String) : Bool :=
  text.utf8ByteSize < Word.bound64

/-- Takes a text. -/
def readText : Reader String :=
  readRun.convert ofUtf8?

/-- An optional value behind its presence byte. -/
def writeOptional (write : α → List UInt8) : Option α → List UInt8
  | none => [0]
  | some value => 1 :: write value

/-- Takes an optional value. -/
def readOptional (reader : Reader α) : Reader (Option α)
  | [] => none
  | byte :: bytes =>
      if byte = 0 then some (none, bytes)
      else if byte = 1 then (reader bytes).map fun (value, rest) => (some value, rest)
      else none

/-- The values of a list behind their number. -/
def writeList (write : α → List UInt8) (values : List α) : List UInt8 :=
  writeNatural 8 values.length ++ values.flatMap write

/-- Whether the length of a list fits into eight bytes and every value has room. -/
def fitsList (fits : α → Bool) (values : List α) : Bool :=
  decide (values.length < Word.bound64) && values.all fits

/-- Takes the given number of values. -/
def readMany (reader : Reader α) : Nat → Reader (List α)
  | 0, bytes => some ([], bytes)
  | count + 1, bytes => do
      let (value, rest) ← reader bytes
      let (others, rest) ← readMany reader count rest
      pure (value :: others, rest)

/-- Takes a list. -/
def readList (reader : Reader α) : Reader (List α) := fun bytes => do
  let (count, rest) ← readNatural 8 bytes
  readMany reader count rest

end Binary
end Statechart
