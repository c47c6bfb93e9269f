import Statechart.Json.Reader

/-!
# Texts in JSON

A text stands between quotes. Control characters must be escaped. A character outside
the basic plane is escaped as a pair of surrogates; half a pair is not allowed.
-/

namespace Statechart
namespace Json

/-- The value of a hexadecimal digit of either case. -/
def hexValue? (digit : Char) : Option Nat :=
  let code := digit.toNat
  if 48 ≤ code ∧ code ≤ 57 then some (code - 48)
  else if 97 ≤ code ∧ code ≤ 102 then some (code - 87)
  else if 65 ≤ code ∧ code ≤ 70 then some (code - 55)
  else none

/-- Whether four bytes follow when the text is encoded. -/
def hasFourBytes (characters : List Char) : Bool :=
  4 ≤ (characters.take 4).foldl (fun bytes character => bytes + character.utf8Size) 0

/-- Takes the four digits of a code unit. Where the text has no four bytes left it ends
too early, whatever they are. -/
def readCodeUnit (characters : List Char) : Except Fault (Nat × List Char) :=
  if hasFourBytes characters then
    match characters with
    | first :: second :: third :: fourth :: rest =>
        match hexValue? first, hexValue? second, hexValue? third, hexValue? fourth with
        | some a, some b, some c, some d => .ok (4096 * a + 256 * b + 16 * c + d, rest)
        | _, _, _, _ => .error .malformed
    | _ => .error .malformed
  else .error .truncated

/-- Takes the second half of a surrogate pair with its escape, given the first half. -/
def readLowSurrogate (high : Nat) (characters : List Char) :
    Except Fault (Char × List Char) :=
  match characters with
  | [] => .error .truncated
  | backslash :: rest =>
      if backslash ≠ '\\' then .error .malformed
      else
        match rest with
        | [] => .error .truncated
        | letter :: rest =>
            if letter ≠ 'u' then .error .malformed
            else
              match readCodeUnit rest with
              | .error fault => .error fault
              | .ok (low, rest) =>
                  if 0xdc00 ≤ low ∧ low ≤ 0xdfff then
                    .ok (Char.ofNat (0x10000 + 1024 * (high - 0xd800) + (low - 0xdc00)), rest)
                  else .error .malformed

/-- Takes the character that an escape stands for, behind the backslash. -/
def readEscape (characters : List Char) : Except Fault (Char × List Char) :=
  match characters with
  | [] => .error .truncated
  | '"' :: rest => .ok ('"', rest)
  | '\\' :: rest => .ok ('\\', rest)
  | '/' :: rest => .ok ('/', rest)
  | 'b' :: rest => .ok ('\x08', rest)
  | 'f' :: rest => .ok ('\x0c', rest)
  | 'n' :: rest => .ok ('\n', rest)
  | 'r' :: rest => .ok ('\r', rest)
  | 't' :: rest => .ok ('\t', rest)
  | 'u' :: rest =>
      match readCodeUnit rest with
      | .error fault => .error fault
      | .ok (unit, rest) =>
          if 0xdc00 ≤ unit ∧ unit ≤ 0xdfff then .error .malformed
          else if 0xd800 ≤ unit ∧ unit ≤ 0xdbff then readLowSurrogate unit rest
          else .ok (Char.ofNat unit, rest)
  | _ => .error .malformed

/-- Takes what an escape in an ignored text stands for. Surrogates need not be paired
there. -/
def skipEscape (characters : List Char) : Except Fault (List Char) :=
  match characters with
  | [] => .error .truncated
  | letter :: rest =>
      if letter = 'u' then (readCodeUnit rest).map Prod.snd
      else if letter ∈ ['"', '\\', '/', 'b', 'f', 'n', 'r', 't'] then .ok rest
      else .error .malformed

/-- Takes characters up to the closing quote, in at most as many steps as the bound
allows. -/
def readBodyWithin : Nat → List Char → Except Fault (List Char × List Char)
  | 0, _ => .error .truncated
  | bound + 1, characters =>
      match characters with
      | [] => .error .truncated
      | '"' :: rest => .ok ([], rest)
      | '\\' :: rest => do
          let (character, rest) ← readEscape rest
          let (others, rest) ← readBodyWithin bound rest
          pure (character :: others, rest)
      | character :: rest =>
          if character.toNat < 0x20 then .error .malformed
          else do
            let (others, rest) ← readBodyWithin bound rest
            pure (character :: others, rest)

/-- Takes a text behind its opening quote. -/
def readBody (characters : List Char) : Except Fault (String × List Char) :=
  match readBodyWithin (characters.length + 1) characters with
  | .error fault => .error fault
  | .ok (body, rest) => .ok (String.ofList body, rest)

/-- Skips characters up to the closing quote, in at most as many steps as the bound
allows. -/
def skipBodyWithin : Nat → List Char → Except Fault (List Char)
  | 0, _ => .error .truncated
  | bound + 1, characters =>
      match characters with
      | [] => .error .truncated
      | '"' :: rest => .ok rest
      | '\\' :: rest => do skipBodyWithin bound (← skipEscape rest)
      | character :: rest =>
          if character.toNat < 0x20 then .error .malformed else skipBodyWithin bound rest

/-- Skips a text behind its opening quote. -/
def skipBody (characters : List Char) : Except Fault (List Char) :=
  skipBodyWithin (characters.length + 1) characters

end Json
end Statechart
