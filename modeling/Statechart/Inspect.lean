import Statechart.Text.Quoted

/-!
# Inspection texts

Values that appear in error messages and log records have an inspection text. It tells
apart values that a plain rendering would confuse: a text is quoted, so the text `"5"`
and the number `5` look different.
-/

namespace Statechart

/-- A type whose values have an inspection text. -/
class Inspect (α : Type) where
  /-- The text shown for a value. -/
  inspect : α → String

export Inspect (inspect)

instance : Inspect String where
  inspect := Text.Quoted.encode

instance : Inspect Nat where
  inspect := Nat.repr

instance : Inspect Int where
  inspect
    | .ofNat magnitude => magnitude.repr
    | .negSucc predecessor => "-" ++ (predecessor + 1).repr

instance [Inspect α] : Inspect (Option α) where
  inspect
    | none => "None"
    | some value => "Some(" ++ inspect value ++ ")"

instance [Inspect α] : Inspect (List α) where
  inspect values := "[" ++ ", ".intercalate (values.map inspect) ++ "]"

/-- The inspection text of a record: its name and its fields in order. -/
def inspectRecord
    (name : String)
    (fields : List (String × String)) : String :=
  name ++ " \x7b " ++
    ", ".intercalate (fields.map fun field => field.1 ++ ": " ++ field.2) ++ " \x7d"

end Statechart
