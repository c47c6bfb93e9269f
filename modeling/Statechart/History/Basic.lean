import Statechart.Timestamp.Basic

/-!
# Histories

A history keeps the completed transitions of a machine, oldest first. With a limit it
keeps only the most recent ones.
-/

namespace Statechart

/-- A completed transition. -/
structure Record (κ : Type) where
  /-- The active leaves before. -/
  before : List κ
  /-- The active leaves after. -/
  after : List κ
  /-- The inspection text of the trigger. -/
  trigger : String
  /-- The number of the event. -/
  number : UInt64
  /-- When the transition was completed. -/
  timestamp : Timestamp
  deriving DecidableEq

/-- The number of the event as it is shown. -/
def Record.sequence {κ : Type} (record : Record κ) : Nat := record.number.toNat

/-- The completed transitions of a machine. -/
structure History (κ : Type) where
  /-- The records, oldest first. -/
  records : List (Record κ)
  /-- How many records are kept; without a limit, all of them. -/
  limit : Option Nat
  deriving DecidableEq

namespace History

variable {κ : Type}

/-- A history without records. -/
def empty (limit : Option Nat) : History κ := ⟨[], limit⟩

/-- The last records of a list, as many as the limit allows. -/
def trim (limit : Option Nat) (records : List (Record κ)) : List (Record κ) :=
  match limit with
  | none => records
  | some bound => records.drop (records.length - bound)

/-- The history with one more record. The oldest records beyond the limit are
forgotten. -/
def record (history : History κ) (entry : Record κ) : History κ :=
  { history with records := trim history.limit (history.records ++ [entry]) }

/-- The sets of active leaves that the history passes through. -/
def path (history : History κ) : List (List κ) :=
  match history.records with
  | [] => []
  | first :: _ => first.before :: history.records.map Record.after

/-- The time from the first to the last record in seconds and nanoseconds. There is none
without records or when time ran backwards. -/
def duration? (history : History κ) : Option (Nat × Nat) :=
  match history.records.head?, history.records.getLast? with
  | some first, some last =>
      let elapsed := last.timestamp.nanosecondsSince first.timestamp
      if elapsed < 0 then none
      else some (elapsed.toNat / 1000000000, elapsed.toNat % 1000000000)
  | _, _ => none

@[simp] theorem limit_record (history : History κ) (entry : Record κ) :
    (history.record entry).limit = history.limit := rfl

@[simp] theorem records_record (history : History κ) (entry : Record κ) :
    (history.record entry).records = trim history.limit (history.records ++ [entry]) := rfl

@[simp] theorem records_empty (limit : Option Nat) :
    (empty limit : History κ).records = [] := rfl

@[simp] theorem limit_empty (limit : Option Nat) :
    (empty limit : History κ).limit = limit := rfl

end History
end Statechart
