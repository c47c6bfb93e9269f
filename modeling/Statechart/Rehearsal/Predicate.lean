import Statechart.Failure

/-!
# Predicates on payload values

Simple conditions on the value of a payload: comparisons with an operand of the same
type, evenness of numbers, the beginning of texts. A predicate may also be constant or
break off.
-/

namespace Statechart
namespace Rehearsal

/-- A comparison of a value with an operand. -/
inductive Comparison
  | less
  | atMost
  | greater
  | atLeast
  | equal
  | different
  deriving DecidableEq

namespace Comparison

/-- Whether a comparison holds when value and operand are ordered in a given way. -/
def holds : Comparison → Ordering → Bool
  | .less, order => order == .lt
  | .atMost, order => order != .gt
  | .greater, order => order == .gt
  | .atLeast, order => order != .lt
  | .equal, order => order == .eq
  | .different, order => order != .eq

end Comparison

/-- The order of two lists, item by item. -/
def compareLists (compare : α → α → Ordering) : List α → List α → Ordering
  | [], [] => .eq
  | [], _ :: _ => .lt
  | _ :: _, [] => .gt
  | left :: lefts, right :: rights =>
      (compare left right).then (compareLists compare lefts rights)

/-- The order of two values of one type. Numbers are ordered by size, texts by the code
points of their characters, lists and pairs part by part, and false comes before true. -/
def compareValues : (type : PayloadType) → type.Value → type.Value → Ordering
  | .unit, _, _ => .eq
  | .bool, left, right => compare (α := Nat) (Bool.toNat left) (Bool.toNat right)
  | .uint8, left, right => compare (UInt8.toNat left) (UInt8.toNat right)
  | .int32, left, right => compare (Int32.toInt left) (Int32.toInt right)
  | .uint32, left, right => compare (UInt32.toNat left) (UInt32.toNat right)
  | .int64, left, right => compare (Int64.toInt left) (Int64.toInt right)
  | .uint64, left, right => compare (UInt64.toNat left) (UInt64.toNat right)
  | .char, left, right => compare (Char.toNat left) (Char.toNat right)
  | .string, left, right => compareTexts left right
  | .literal, left, right => compareTexts left right
  | .numbers, left, right =>
      compareLists (fun left right => compare (Int64.toInt left) (Int64.toInt right))
        left right
  | .labelled, left, right =>
      (compare (Int64.toInt left.1) (Int64.toInt right.1)).then
        (compareTexts left.2 right.2)
where
  /-- The order of two texts by the code points of their characters. -/
  compareTexts (left right : String) : Ordering :=
    compareLists (fun left right => compare (Char.toNat left) (Char.toNat right))
      left.toList right.toList

/-- The number that a value is, if its type is one of numbers. -/
def numberOf? : (type : PayloadType) → type.Value → Option Int
  | .uint8, value => some (UInt8.toNat value)
  | .int32, value => some (Int32.toInt value)
  | .uint32, value => some (UInt32.toNat value)
  | .int64, value => some (Int64.toInt value)
  | .uint64, value => some (UInt64.toNat value)
  | _, _ => none

/-- The text that a value is, if its type is one of texts. -/
def textOf? : (type : PayloadType) → type.Value → Option String
  | .string, value => some value
  | .literal, value => some value
  | _, _ => none

/-- A condition on the values of a type. -/
inductive Predicate (type : PayloadType)
  | compare (comparison : Comparison) (operand : type.Value)
  | even
  | startsWith (beginning : String)
  | constant (value : Bool)
  | breaks (panic : Panic)

namespace Predicate

/-- Holds a predicate against a value. -/
def decide (predicate : Predicate type) (value : type.Value) : Outcome Bool :=
  match predicate with
  | .compare comparison operand =>
      .returned (comparison.holds (compareValues type value operand))
  | .even => .returned ((numberOf? type value).any fun number => number % 2 == 0)
  | .startsWith beginning =>
      .returned ((textOf? type value).any fun text => beginning.toList.isPrefixOf text.toList)
  | .constant value => .returned value
  | .breaks panic => .panicked panic

end Predicate
end Rehearsal
end Statechart
