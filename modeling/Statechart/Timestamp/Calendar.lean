/-!
# Calendar dates

Dates of the Gregorian calendar, extended backwards and forwards over a fixed range of
years. The year before year one is year zero.
-/

namespace Statechart

/-- Whether a year has a leap day. -/
def isLeapYear (year : Int) : Bool :=
  year % 4 == 0 && (year % 100 != 0 || year % 400 == 0)

/-- The number of days in a month. -/
def daysInMonth (year : Int) (month : Nat) : Nat :=
  match month with
  | 4 | 6 | 9 | 11 => 30
  | 2 => if isLeapYear year then 29 else 28
  | _ => 31

/-- A calendar date. -/
structure Date where
  year : Int
  month : Nat
  day : Nat
  /-- The year is in the supported range. -/
  year_mem : -262143 ≤ year ∧ year ≤ 262142
  /-- The month is one of twelve. -/
  month_mem : 1 ≤ month ∧ month ≤ 12
  /-- The month has such a day. -/
  day_mem : 1 ≤ day ∧ day ≤ daysInMonth year month
  deriving DecidableEq

namespace Date

/-- The date with the given parts, if there is one. -/
def make? (year : Int) (month day : Nat) : Option Date :=
  if valid : (-262143 ≤ year ∧ year ≤ 262142) ∧ (1 ≤ month ∧ month ≤ 12) ∧
      (1 ≤ day ∧ day ≤ daysInMonth year month) then
    some ⟨year, month, day, valid.1, valid.2.1, valid.2.2⟩
  else none

/-- The day after, except after the last supported day. -/
def next? (date : Date) : Option Date :=
  if date.day < daysInMonth date.year date.month then
    make? date.year date.month (date.day + 1)
  else if date.month < 12 then make? date.year (date.month + 1) 1
  else make? (date.year + 1) 1 1

/-- The day before, except before the first supported day. -/
def previous? (date : Date) : Option Date :=
  if 1 < date.day then make? date.year date.month (date.day - 1)
  else if 1 < date.month then
    make? date.year (date.month - 1) (daysInMonth date.year (date.month - 1))
  else make? (date.year - 1) 12 31

/-- The number of days in the months before a month. -/
def daysBeforeMonth (year : Int) (month : Nat) : Nat :=
  (List.range (month - 1)).foldl
    (fun days earlier => days + daysInMonth year (earlier + 1)) 0

/-- The number of days from the first day of year one, negative for earlier dates. -/
def dayNumber (date : Date) : Int :=
  let before := date.year - 1
  365 * before + before / 4 - before / 100 + before / 400 +
    daysBeforeMonth date.year date.month + date.day - 1

/-- Making a date from the parts of a date gives it back. -/
theorem make?_eq_self (date : Date) : make? date.year date.month date.day = some date := by
  simp [make?, date.year_mem, date.month_mem, date.day_mem]

end Date
end Statechart
