import Statechart.Json.Reader
import Statechart.Word

/-!
# Numbers in JSON

Only natural numbers of at most 64 bits have a meaning in the documents of this library.
Other numbers are told apart as far as their faults require: a number may be negative or
not a whole number of that size, it may be too large even for a double, or it may break
the rules.
-/

namespace Statechart
namespace Json

/-- What a number in a document amounts to. -/
inductive Number
  /-- A natural number of at most 64 bits. -/
  | natural (value : Nat)
  /-- Any other number that a double can approximate. -/
  | other
  deriving DecidableEq

/-- A natural number rounded to 53 significant bits, a tie going to the even
neighbour. -/
def roundToDouble (value : Nat) : Nat :=
  if value < 9007199254740992 then value
  else
    let shift := Nat.log2 value - 52
    let unit := Nat.pow 2 shift
    let quotient := value / unit
    let remainder := value % unit
    if unit < 2 * remainder ∨ (2 * remainder = unit ∧ quotient % 2 = 1) then
      (quotient + 1) * unit
    else quotient * unit

/-- Whether a significand times a power of ten is too large for a double. The power of
ten is itself taken as a double. -/
def exceedsDouble (significand : Nat) (exponent : Int) : Bool :=
  if significand = 0 ∨ exponent < 0 then false
  else if 308 < exponent then true
  else
    Nat.pow 2 1024 - Nat.pow 2 970 ≤
      roundToDouble significand * roundToDouble (Nat.pow 10 exponent.toNat)

/-- The value of a digit. -/
def digitValue (digit : Char) : Nat := digit.toNat - 48

/-- Appends digits to a significand for as long as it fits into 64 bits. The result
counts the digits that were appended. -/
def absorb (significand : Nat) : List Char → Nat × Nat
  | [] => (significand, 0)
  | digit :: digits =>
      let larger := 10 * significand + digitValue digit
      if larger < Word.bound64 then
        let (result, count) := absorb larger digits
        (result, count + 1)
      else (significand, 0)

/-- Takes the exponent behind its letter. -/
def readExponent (significand : Nat) (scale : Int) (characters : List Char) :
    Except Fault (Number × List Char) :=
  let (negative, start) := match characters with
    | '+' :: rest => (false, rest)
    | '-' :: rest => (true, rest)
    | _ => (false, characters)
  match start with
  | [] => .error .truncated
  | first :: _ =>
      if first.isDigit then
        let digits := start.takeWhile Char.isDigit
        let size : Nat := digits.foldl (fun value digit => 10 * value + digitValue digit) 0
        let exponent := if negative then scale - size else scale + size
        if exceedsDouble significand exponent then .error .malformed
        else .ok (.other, start.drop digits.length)
      else .error .malformed

/-- Takes what follows the whole part and the fraction of a number. -/
def readTail (significand : Nat) (scale : Int) (characters : List Char) :
    Except Fault (Number × List Char) :=
  match characters with
  | 'e' :: rest | 'E' :: rest => readExponent significand scale rest
  | _ =>
      if exceedsDouble significand scale then .error .malformed
      else .ok (.other, characters)

/-- Takes a fraction behind its point. -/
def readFraction (significand : Nat) (scale : Int) (characters : List Char) :
    Except Fault (Number × List Char) :=
  let digits := characters.takeWhile Char.isDigit
  let rest := characters.drop digits.length
  if digits.isEmpty then
    if characters.isEmpty then .error .truncated else .error .malformed
  else
    let (significand, count) := absorb significand digits
    readTail significand (scale - count) rest

/-- Takes a number whose sign has been taken. -/
def readUnsigned (negative : Bool) (characters : List Char) :
    Except Fault (Number × List Char) :=
  let digits := characters.takeWhile Char.isDigit
  let rest := characters.drop digits.length
  match digits with
  | [] => if characters.isEmpty then .error .truncated else .error .malformed
  | first :: others =>
      if first = '0' ∧ others ≠ [] then .error .malformed
      else
        let (significand, count) := absorb 0 digits
        let scale : Int := digits.length - count
        match rest with
        | '.' :: rest => readFraction significand scale rest
        | 'e' :: _ | 'E' :: _ => readTail significand scale rest
        | _ =>
            if scale = 0 then
              .ok (if negative then .other else .natural significand, rest)
            else readTail significand scale rest

/-- Takes a number from its first character on. -/
def readNumber (characters : List Char) : Except Fault (Number × List Char) :=
  match characters with
  | '-' :: rest => readUnsigned true rest
  | _ => readUnsigned false characters

end Json
end Statechart
