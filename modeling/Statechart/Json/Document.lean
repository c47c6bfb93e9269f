import Statechart.Json.Layout
import Statechart.Json.Skip

/-!
# JSON documents

A document of any shape. Numbers keep the digits they were written with, and the members
of an object keep their order.
-/

namespace Statechart
namespace Json

/-- A document of any shape. -/
inductive Document
  | null
  | bool (value : Bool)
  /-- A number as it was written. -/
  | number (digits : String)
  | text (value : String)
  | array (items : List Document)
  | object (members : List (String × Document))
  deriving Inhabited

namespace Document

/-- Whether a character can stand in a number. -/
def isNumeric (character : Char) : Bool :=
  character.isDigit || ['-', '+', '.', 'e', 'E'].contains character

/-- Takes a number, keeping its digits. -/
def readNumber (characters : List Char) : Except Fault (Document × List Char) :=
  let digits := characters.takeWhile isNumeric
  match (skipNumber (if digits.head? = some '-' then digits.tail else digits)) with
  | .ok [] => .ok (.number (String.ofList digits), characters.drop digits.length)
  | _ => .error .malformed

mutual

/-- Takes a document, in at most as many steps as the bound allows. -/
def readWithin : Nat → Reader Document
  | 0, _ => .error .truncated
  | bound + 1, characters =>
      match skipBlanks characters with
      | [] => .error .truncated
      | 'n' :: rest => do pure (.null, ← expect ['u', 'l', 'l'] rest)
      | 't' :: rest => do pure (.bool true, ← expect ['r', 'u', 'e'] rest)
      | 'f' :: rest => do pure (.bool false, ← expect ['a', 'l', 's', 'e'] rest)
      | '"' :: rest => Reader.map text readBody rest
      | '[' :: rest =>
          match skipBlanks rest with
          | ']' :: rest => .ok (.array [], rest)
          | rest => Reader.map array (readItems bound) rest
      | '\x7b' :: rest =>
          match skipBlanks rest with
          | '\x7d' :: rest => .ok (.object [], rest)
          | rest => Reader.map object (readMembers bound) rest
      | rest => readNumber rest

/-- Takes the items of an array up to its end, of which there is at least one. -/
def readItems : Nat → Reader (List Document)
  | 0, _ => .error .truncated
  | bound + 1, characters => do
      let (item, rest) ← readWithin bound characters
      match skipBlanks rest with
      | ',' :: rest =>
          let (items, rest) ← readItems bound rest
          pure (item :: items, rest)
      | ']' :: rest => pure ([item], rest)
      | [] => throw .truncated
      | _ => throw .malformed

/-- Takes the members of an object up to its end, of which there is at least one. -/
def readMembers : Nat → Reader (List (String × Document))
  | 0, _ => .error .truncated
  | bound + 1, characters => do
      match skipBlanks characters with
      | '"' :: rest =>
          let (key, rest) ← readBody rest
          let (value, rest) ← readWithin bound (← skipColon rest)
          match skipBlanks rest with
          | ',' :: rest =>
              let (members, rest) ← readMembers bound rest
              pure ((key, value) :: members, rest)
          | '\x7d' :: rest => pure ([(key, value)], rest)
          | [] => throw .truncated
          | _ => throw .malformed
      | [] => throw .truncated
      | _ => throw .malformed

end

/-- Reads a whole document. -/
def ofText (written : String) : Except Fault Document := do
  let characters := written.toList
  let (document, rest) ← readWithin (characters.length + 1) characters
  if (skipBlanks rest).isEmpty then pure document else throw .malformed

mutual

/-- Writes a document without line breaks. -/
def write : Document → List Char
  | .null => Json.null
  | .bool true => ['t', 'r', 'u', 'e']
  | .bool false => ['f', 'a', 'l', 's', 'e']
  | .number digits => digits.toList
  | .text value => writeText value
  | .array items => '[' :: joined [','] (writeItems items) ++ [']']
  | .object members => '\x7b' :: joined [','] (writeMembers members) ++ ['\x7d']

/-- Writes the items of an array. -/
def writeItems : List Document → List (List Char)
  | [] => []
  | item :: items => item.write :: writeItems items

/-- Writes the members of an object. -/
def writeMembers : List (String × Document) → List (List Char)
  | [] => []
  | (key, value) :: members =>
      (writeText key ++ ':' :: value.write) :: writeMembers members

end

/-- The text of a document without line breaks. -/
def toText (document : Document) : String :=
  String.ofList document.write

/-- The document of an integer. -/
def ofInt (value : Int) : Document := .number (toString value)

/-- The document of a natural number. -/
def ofNat (value : Nat) : Document := .number (String.ofList (writeNatural value))

/-- The document of an optional value, which is null when absent. -/
def ofOption (encode : α → Document) : Option α → Document
  | none => .null
  | some value => encode value

/-- The document of a list. -/
def ofList (encode : α → Document) (values : List α) : Document :=
  .array (values.map encode)

/-- The document of a list of texts. -/
def ofTexts (values : List String) : Document := ofList text values

/-- A member of an object. A missing member is null. -/
def get (document : Document) (key : String) : Document :=
  match document with
  | .object members => ((members.find? fun entry => entry.1 == key).map Prod.snd).getD .null
  | _ => .null

/-- The items of an array. Null has none. -/
def items? : Document → Option (List Document)
  | .array values => some values
  | .null => some []
  | _ => none

/-- The value of a text. -/
def text? : Document → Option String
  | .text value => some value
  | _ => none

/-- The value of an integer. -/
def int? : Document → Option Int
  | .number digits => digits.toInt?
  | _ => none

/-- The value of a natural number. -/
def nat? : Document → Option Nat
  | .number digits => digits.toNat?
  | _ => none

/-- The value of a truth value. -/
def bool? : Document → Option Bool
  | .bool value => some value
  | _ => none

/-- An optional value, which is null when absent. -/
def optional (decode : Document → Option α) : Document → Option (Option α)
  | .null => some none
  | document => (decode document).map some

end Document
end Json
end Statechart
