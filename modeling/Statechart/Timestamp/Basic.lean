import Statechart.Timestamp.Calendar

/-!
# Timestamps

A timestamp is a moment in coordinated universal time to the nanosecond. A leap second
is the last second of its minute with more than a second's worth of nanoseconds.
-/

namespace Statechart

/-- A moment in coordinated universal time. -/
structure Timestamp where
  date : Date
  /-- The second of the day. -/
  second : Nat
  /-- The nanosecond, counted on through a leap second. -/
  nanosecond : Nat
  /-- A day has 86400 seconds. -/
  second_lt : second < 86400
  /-- A leap second adds one second. -/
  nanosecond_lt : nanosecond < 2000000000
  /-- A leap second follows the last second of a minute. -/
  leap : 1000000000 ≤ nanosecond → second % 60 = 59
  deriving DecidableEq

namespace Timestamp

/-- The timestamp with the given parts, if they fit together. -/
def make? (date : Date) (second nanosecond : Nat) : Option Timestamp :=
  if valid : second < 86400 ∧ nanosecond < 2000000000 ∧
      (1000000000 ≤ nanosecond → second % 60 = 59) then
    some ⟨date, second, nanosecond, valid.1, valid.2.1, valid.2.2⟩
  else none

/-- Making a timestamp from the parts of a timestamp gives it back. -/
theorem make?_eq_self (timestamp : Timestamp) :
    make? timestamp.date timestamp.second timestamp.nanosecond = some timestamp := by
  simp only [make?]
  rw [dif_pos ⟨timestamp.second_lt, timestamp.nanosecond_lt, timestamp.leap⟩]

/-- The moment that a local clock showed, which runs ahead of universal time by a number
of seconds smaller than a day. -/
def ofLocal?
    (date : Date)
    (second nanosecond : Nat)
    (ahead : Int) : Option Timestamp :=
  let universal := (second : Int) - ahead
  if universal < 0 then
    date.previous?.bind fun day => make? day (universal + 86400).toNat nanosecond
  else if 86400 ≤ universal then
    date.next?.bind fun day => make? day (universal - 86400).toNat nanosecond
  else make? date universal.toNat nanosecond

/-- The nanoseconds from an earlier to a later moment. A leap second that lies between
the two times of day counts. -/
def nanosecondsSince (later earlier : Timestamp) : Int :=
  let days := later.date.dayNumber - earlier.date.dayNumber
  let seconds := (later.second : Int) - earlier.second
  let adjustment : Int :=
    if earlier.second < later.second then
      if 1000000000 ≤ earlier.nanosecond then 1 else 0
    else if later.second < earlier.second then
      if 1000000000 ≤ later.nanosecond then -1 else 0
    else 0
  (86400 * days + seconds + adjustment) * 1000000000 +
    ((later.nanosecond : Int) - earlier.nanosecond)

end Timestamp
end Statechart
