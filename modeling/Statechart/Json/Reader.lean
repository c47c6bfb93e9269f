/-!
# Reading JSON

A reader takes what it needs from the front of a text and returns the rest. A document
is read from left to right against the type that is expected, and the first problem met
decides the fault: the text stops too early, a value has the wrong type, or the text is
not JSON at all.
-/

namespace Statechart
namespace Json

/-- Why a document cannot be read. -/
inductive Fault
  /-- The text ends inside the document. -/
  | truncated
  /-- A value is not of the expected type or range, or a member is missing or repeated. -/
  | mistyped
  /-- The text breaks the rules of the format. -/
  | malformed
  deriving DecidableEq

/-- Takes a value from the front of a text. -/
abbrev Reader (α : Type) := List Char → Except Fault (α × List Char)

/-- Applies a function to what a reader takes. -/
def Reader.map (transform : α → β) (reader : Reader α) : Reader β := fun characters =>
  match reader characters with
  | .error fault => .error fault
  | .ok (value, rest) => .ok (transform value, rest)

/-- Converts what a reader takes; a value that cannot be converted is of the wrong
type. -/
def Reader.convert (conversion : α → Option β) (reader : Reader α) : Reader β :=
  fun characters =>
    match reader characters with
    | .error fault => .error fault
    | .ok (value, rest) =>
        match conversion value with
        | none => .error .mistyped
        | some converted => .ok (converted, rest)

/-- The characters that may stand between the parts of a document. -/
def isBlank (character : Char) : Bool :=
  character == ' ' || character == '\n' || character == '\t' || character == '\r'

/-- Drops the blanks at the front. -/
def skipBlanks (characters : List Char) : List Char :=
  characters.dropWhile isBlank

/-- Takes the rest of a literal whose first letter has been taken. -/
def expect : List Char → List Char → Except Fault (List Char)
  | [], characters => .ok characters
  | _ :: _, [] => .error .truncated
  | letter :: letters, character :: rest =>
      if character = letter then expect letters rest else .error .malformed

/-- Takes the colon between a key and its value. -/
def skipColon (characters : List Char) : Except Fault (List Char) :=
  match skipBlanks characters with
  | [] => .error .truncated
  | character :: rest => if character = ':' then .ok rest else .error .malformed

end Json
end Statechart
