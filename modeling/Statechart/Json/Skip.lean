import Statechart.Json.Text

/-!
# Skipping JSON values

The value of an unknown member is skipped. It has to be well formed, but its numbers may
have any size and its texts any surrogates, and it may be nested to any depth.
-/

namespace Statechart
namespace Json

/-- What a skipped value is nested in. -/
inductive Enclosure
  | array
  | object
  deriving DecidableEq

/-- Skips digits, of which there must be one. -/
def skipDigits (characters : List Char) : Except Fault (List Char) :=
  if (characters.head?.map Char.isDigit).getD false then
    .ok (characters.dropWhile Char.isDigit)
  else .error .malformed

/-- Skips an exponent behind its letter. -/
def skipExponent (characters : List Char) : Except Fault (List Char) :=
  match characters with
  | '+' :: rest | '-' :: rest => skipDigits rest
  | _ => skipDigits characters

/-- Skips a fraction and an exponent where they are present. -/
def skipNumberTail (characters : List Char) : Except Fault (List Char) :=
  match characters with
  | '.' :: rest =>
      match skipDigits rest with
      | .error fault => .error fault
      | .ok ('e' :: rest) | .ok ('E' :: rest) => skipExponent rest
      | .ok rest => .ok rest
  | 'e' :: rest | 'E' :: rest => skipExponent rest
  | _ => .ok characters

/-- Skips a number behind its sign. A number that stops too early breaks the rules. -/
def skipNumber (characters : List Char) : Except Fault (List Char) :=
  match characters with
  | '0' :: rest =>
      if (rest.head?.map Char.isDigit).getD false then .error .malformed
      else skipNumberTail rest
  | _ =>
      match skipDigits characters with
      | .error fault => .error fault
      | .ok rest => skipNumberTail rest

/-- Skips a key and the colon behind it. -/
def skipKey (characters : List Char) : Except Fault (List Char) :=
  match skipBlanks characters with
  | [] => .error .truncated
  | '"' :: rest => do skipColon (← skipBody rest)
  | _ => .error .malformed

/-- Skips to the end of the outermost enclosure. When `awaiting` holds, a value comes
next; otherwise one has just ended. -/
def skipWithin :
    Nat → (awaiting : Bool) → List Enclosure → List Char → Except Fault (List Char)
  | 0, _, _, _ => .error .truncated
  | bound + 1, true, outer, characters =>
      match skipBlanks characters with
      | [] => .error .truncated
      | 'n' :: rest => do skipWithin bound false outer (← expect ['u', 'l', 'l'] rest)
      | 't' :: rest => do skipWithin bound false outer (← expect ['r', 'u', 'e'] rest)
      | 'f' :: rest => do skipWithin bound false outer (← expect ['a', 'l', 's', 'e'] rest)
      | '"' :: rest => do skipWithin bound false outer (← skipBody rest)
      | '-' :: rest => do skipWithin bound false outer (← skipNumber rest)
      | '[' :: rest =>
          match skipBlanks rest with
          | [] => .error .truncated
          | ']' :: rest => skipWithin bound false outer rest
          | _ => skipWithin bound true (.array :: outer) rest
      | '\x7b' :: rest =>
          match skipBlanks rest with
          | '\x7d' :: rest => skipWithin bound false outer rest
          | rest => do skipWithin bound true (.object :: outer) (← skipKey rest)
      | character :: rest =>
          if character.isDigit then do
            skipWithin bound false outer (← skipNumber (character :: rest))
          else .error .malformed
  | _ + 1, false, [], characters => .ok characters
  | bound + 1, false, .array :: outer, characters =>
      match skipBlanks characters with
      | [] => .error .truncated
      | ',' :: rest => skipWithin bound true (.array :: outer) rest
      | ']' :: rest => skipWithin bound false outer rest
      | _ => .error .malformed
  | bound + 1, false, .object :: outer, characters =>
      match skipBlanks characters with
      | [] => .error .truncated
      | ',' :: rest => do skipWithin bound true (.object :: outer) (← skipKey rest)
      | '\x7d' :: rest => skipWithin bound false outer rest
      | _ => .error .malformed

/-- Skips one value. -/
def skipValue (characters : List Char) : Except Fault (List Char) :=
  skipWithin (2 * characters.length + 2) true [] characters

end Json
end Statechart
