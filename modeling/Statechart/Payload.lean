import Statechart.Inspect

/-!
# Payloads

An event carries one value of one of a fixed family of types. A payload remembers its
type, so that a consumer that expects another type can tell. Two types are different
even when their values look alike.
-/

namespace Statechart

/-- The types of values that an event can carry. -/
inductive PayloadType
  | unit
  | bool
  | uint8
  | int32
  | uint32
  | int64
  | uint64
  | char
  /-- A text put together at run time. -/
  | string
  /-- A text fixed in advance. -/
  | literal
  /-- A list of numbers. -/
  | numbers
  /-- A number with a text. -/
  | labelled
  deriving DecidableEq

namespace PayloadType

/-- The values of a payload type. -/
def Value : PayloadType → Type
  | .unit => Unit
  | .bool => Bool
  | .uint8 => UInt8
  | .int32 => Int32
  | .uint32 => UInt32
  | .int64 => Int64
  | .uint64 => UInt64
  | .char => Char
  | .string => String
  | .literal => String
  | .numbers => List Int64
  | .labelled => Int64 × String

/-- The full name of a payload type, as error texts give it. -/
def fullName : PayloadType → String
  | .unit => "()"
  | .bool => "bool"
  | .uint8 => "u8"
  | .int32 => "i32"
  | .uint32 => "u32"
  | .int64 => "i64"
  | .uint64 => "u64"
  | .char => "char"
  | .string => "alloc::string::String"
  | .literal => "&str"
  | .numbers => "alloc::vec::Vec<i64>"
  | .labelled => "(i64, alloc::string::String)"

end PayloadType

/-- A value together with its type. -/
structure Payload where
  type : PayloadType
  value : type.Value

namespace Payload

/-- The payload that carries nothing. -/
def unit : Payload := ⟨.unit, ()⟩

/-- The value of a payload, if it has the expected type. -/
def get? (payload : Payload) (expected : PayloadType) : Option expected.Value :=
  if sameType : payload.type = expected then some (sameType ▸ payload.value) else none

/-- Whether a payload has a type. -/
def is (payload : Payload) (expected : PayloadType) : Bool :=
  payload.type == expected

/-- The name of the payload's type. -/
def typeName (payload : Payload) : String :=
  payload.type.fullName

instance : Inhabited Payload := ⟨unit⟩

instance : Inspect Payload where
  inspect payload := inspectRecord "Payload" [("type_name", inspect payload.typeName)]

/-- A payload gives its value to whoever expects its type. -/
@[simp] theorem get?_self (type : PayloadType) (value : type.Value) :
    (Payload.mk type value).get? type = some value := by
  simp [get?]

/-- A payload gives nothing to whoever expects another type. -/
theorem get?_eq_none_iff (payload : Payload) (expected : PayloadType) :
    payload.get? expected = none ↔ payload.type ≠ expected := by
  simp [get?]

end Payload

/-- A payload of another type than expected. -/
structure PayloadMismatch where
  expected : String
  found : String
  deriving DecidableEq

namespace PayloadMismatch

/-- The text of a mismatch. -/
def message (mismatch : PayloadMismatch) : String :=
  "expected payload of type \x60" ++ mismatch.expected ++ "\x60, found \x60" ++
    mismatch.found ++ "\x60"

end PayloadMismatch
end Statechart
