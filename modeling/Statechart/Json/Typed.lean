import Statechart.Json.Layout
import Statechart.Json.Number
import Statechart.Json.Skip

/-!
# Reading typed JSON

Readers for numbers, texts, optional values, lists and structures. A scalar of the wrong
type is read to its end before its type is held against it. A structure is an object
with its members in any order and unknown members ignored, or an array of all its
members in order.
-/

namespace Statechart
namespace Json

/-- Replaces a success by the fault of a wrong type. -/
def mistypedUnless (result : Except Fault α) : Fault :=
  match result with
  | .error fault => fault
  | .ok _ => .mistyped

/-- The fault of a value that is not of the expected type. -/
def faultOfValue (characters : List Char) : Fault :=
  match skipBlanks characters with
  | [] => .truncated
  | 'n' :: rest => mistypedUnless (expect ['u', 'l', 'l'] rest)
  | 't' :: rest => mistypedUnless (expect ['r', 'u', 'e'] rest)
  | 'f' :: rest => mistypedUnless (expect ['a', 'l', 's', 'e'] rest)
  | '"' :: rest => mistypedUnless (readBody rest)
  | '-' :: rest => mistypedUnless (readNumber ('-' :: rest))
  | '[' :: _ => .mistyped
  | '\x7b' :: _ => .mistyped
  | character :: rest =>
      if character.isDigit then mistypedUnless (readNumber (character :: rest))
      else .malformed

/-- Takes a natural number below a bound. -/
def readNatural (bound : Nat) : Reader Nat := fun characters =>
  match skipBlanks characters with
  | [] => .error .truncated
  | character :: rest =>
      if character.isDigit then
        match readNumber (character :: rest) with
        | .error fault => .error fault
        | .ok (.natural value, rest) =>
            if value < bound then .ok (value, rest) else .error .mistyped
        | .ok (.other, _) => .error .mistyped
      else .error (faultOfValue (character :: rest))

/-- Takes a text. -/
def readText : Reader String := fun characters =>
  match skipBlanks characters with
  | '"' :: rest => readBody rest
  | other => .error (faultOfValue other)

/-- Takes an optional value, absent as the null literal. -/
def readOptional (reader : Reader α) : Reader (Option α) := fun characters =>
  match skipBlanks characters with
  | 'n' :: rest => (expect ['u', 'l', 'l'] rest).map fun rest => (none, rest)
  | other => (reader other).map fun (value, rest) => (some value, rest)

/-- What follows inside an array: another item, from its first character on, or the end
of the array. -/
inductive Next
  | item (characters : List Char)
  | closed (rest : List Char)
  deriving DecidableEq

/-- Comes to the next item of an array or to its end. -/
def nextItem (isFirst : Bool) (characters : List Char) : Except Fault Next :=
  match skipBlanks characters with
  | [] => .error .truncated
  | ']' :: rest => .ok (.closed rest)
  | ',' :: rest =>
      if isFirst then .ok (.item (',' :: rest))
      else
        match skipBlanks rest with
        | [] => .error .truncated
        | ']' :: _ => .error .malformed
        | start => .ok (.item start)
  | start => if isFirst then .ok (.item start) else .error .malformed

/-- Takes the items of an array behind its opening bracket, in at most as many steps as
the bound allows. -/
def readItemsWithin (reader : Reader α) :
    Nat → Bool → List Char → Except Fault (List α × List Char)
  | 0, _, _ => .error .truncated
  | bound + 1, isFirst, characters =>
      match nextItem isFirst characters with
      | .error fault => .error fault
      | .ok (.closed rest) => .ok ([], rest)
      | .ok (.item start) => do
          let (value, rest) ← reader start
          let (others, rest) ← readItemsWithin reader bound false rest
          pure (value :: others, rest)

/-- Takes a list. -/
def readList (reader : Reader α) : Reader (List α) := fun characters =>
  match skipBlanks characters with
  | '[' :: rest => readItemsWithin reader (rest.length + 1) true rest
  | other => .error (faultOfValue other)

/-- A member of a structure. The members read so far are kept in slots of type `σ`. -/
structure Member (σ : Type) where
  /-- The key of the member. -/
  key : String
  /-- Whether the member has been read. -/
  isFilled : σ → Bool
  /-- Takes the value of the member and puts it into its slot. -/
  read : σ → Reader σ

/-- A member that is kept in an optional slot. -/
def Member.slot
    (key : String)
    (get : σ → Option α)
    (set : σ → α → σ)
    (reader : Reader α) : Member σ where
  key
  isFilled slots := (get slots).isSome
  read slots := reader.map (set slots)

/-- How a structure is read. -/
structure Shape (σ α : Type) where
  /-- The members in order. -/
  members : List (Member σ)
  /-- The slots before anything is read. -/
  empty : σ
  /-- The structure made of its members, unless one is missing. -/
  finish : σ → Option α
  /-- Whether members may be missing at the end of the array form. -/
  mayStopEarly : Bool

/-- Comes to the next key of an object and takes it, or `none` with the closing
brace. -/
def nextKey (isFirst : Bool) (characters : List Char) :
    Except Fault (Option String × List Char) :=
  let key (characters : List Char) : Except Fault (Option String × List Char) :=
    match characters with
    | [] => .error .truncated
    | '"' :: rest => (readBody rest).map fun (key, rest) => (some key, rest)
    | _ => .error .malformed
  match skipBlanks characters with
  | [] => .error .truncated
  | '\x7d' :: rest => .ok (none, rest)
  | ',' :: rest => if isFirst then .error .malformed else key (skipBlanks rest)
  | start => if isFirst then key start else .error .malformed

/-- Takes the members of an object behind its opening brace, in at most as many steps as
the bound allows. A repeated member is a fault as soon as its key is read. -/
def readMembersWithin (members : List (Member σ)) :
    Nat → Bool → σ → List Char → Except Fault (σ × List Char)
  | 0, _, _, _ => .error .truncated
  | bound + 1, isFirst, slots, characters =>
      match nextKey isFirst characters with
      | .error fault => .error fault
      | .ok (none, rest) => .ok (slots, rest)
      | .ok (some key, rest) =>
          match members.find? fun member => member.key == key with
          | none => do
              let rest ← skipColon rest
              let rest ← skipValue rest
              readMembersWithin members bound false slots rest
          | some member =>
              if member.isFilled slots then .error .mistyped
              else do
                let rest ← skipColon rest
                let (slots, rest) ← member.read slots rest
                readMembersWithin members bound false slots rest

/-- Takes the end of an array of members. -/
def closeArray (characters : List Char) : Except Fault (List Char) :=
  match skipBlanks characters with
  | [] => .error .truncated
  | ']' :: rest => .ok rest
  | _ => .error .malformed

/-- Takes the members of a structure in order behind the opening bracket. -/
def readInOrder (mayStopEarly : Bool) :
    List (Member σ) → Bool → σ → List Char → Except Fault (σ × List Char)
  | [], _, slots, characters => do
      let rest ← closeArray characters
      pure (slots, rest)
  | member :: members, isFirst, slots, characters =>
      match nextItem isFirst characters with
      | .error fault => .error fault
      | .ok (.closed rest) => if mayStopEarly then .ok (slots, rest) else .error .mistyped
      | .ok (.item start) => do
          let (slots, rest) ← member.read slots start
          readInOrder mayStopEarly members false slots rest

/-- Takes a structure in either of its forms. -/
def readStructure (shape : Shape σ α) : Reader α := fun characters =>
  let finish : Reader σ → Reader α := Reader.convert shape.finish
  match skipBlanks characters with
  | '\x7b' :: rest =>
      finish (readMembersWithin shape.members (rest.length + 1) true shape.empty) rest
  | '[' :: rest =>
      finish (readInOrder shape.mayStopEarly shape.members true shape.empty) rest
  | other => .error (faultOfValue other)

/-- Reads a whole document, behind which nothing but blanks may follow. -/
def readDocument (reader : Reader α) (text : String) : Except Fault α :=
  match reader text.toList with
  | .error fault => .error fault
  | .ok (value, rest) => if (skipBlanks rest).isEmpty then .ok value else .error .malformed

end Json
end Statechart
