/-!
# Log records

A log record has a level, a message and fields in a fixed order. The value of a field is
a text or a number.
-/

namespace Statechart
namespace Log

/-- How important a record is. -/
inductive Level
  | trace
  | debug
  | info
  | warn
  | error
  deriving DecidableEq

/-- The value of a field. -/
inductive Value
  | text (value : String)
  | number (value : Nat)
  deriving DecidableEq

/-- A log record. -/
structure Entry where
  level : Level
  message : String
  fields : List (String × Value)
  deriving DecidableEq

end Log
end Statechart
