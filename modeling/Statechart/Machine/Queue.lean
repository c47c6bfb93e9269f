import Statechart.Event
import Statechart.MachineError

/-!
# Event queues

A queue holds accepted events and markers in the order of arrival. A marker stands for a
caller that waits until everything before it has been handled. A bounded queue has a
number of places. A caller whose marker finds no place waits in line: the next place
that becomes free is reserved for it, and the marker is put there, behind what stands in the
queue by then, when the caller has its turn.
-/

namespace Statechart

/-- What stands in a queue. -/
inductive Command (τ : Type)
  | event (event : Event τ)
  /-- A caller waits here. Callers are told apart by number. -/
  | marker (ticket : Nat)

/-- The events and markers that a machine has yet to handle. -/
structure Queue (τ : Type) where
  /-- The number of places; without it there is no bound. -/
  capacity : Option Nat
  /-- What stands in the queue, the oldest first. -/
  items : List (Command τ)
  /-- The callers in line for a place. -/
  waiting : List Nat
  /-- The callers with a reserved place. -/
  reserved : List Nat

namespace Queue

variable {τ : Type}

/-- A queue with nothing in it. -/
def empty (capacity : Option Nat) : Queue τ := ⟨capacity, [], [], []⟩

/-- The number of places in use. -/
def used (queue : Queue τ) : Nat :=
  queue.items.length + queue.reserved.length

/-- Whether every place is in use. -/
def isFull (queue : Queue τ) : Bool :=
  match queue.capacity with
  | none => false
  | some capacity => capacity ≤ queue.used

/-- Puts a command at the end, if there is a place. -/
def push? (queue : Queue τ) (command : Command τ) : Option (Queue τ) :=
  if queue.isFull then none else some { queue with items := queue.items ++ [command] }

/-- Puts the marker of a caller at the end, or the caller in line. -/
def enroll (queue : Queue τ) (ticket : Nat) : Queue τ :=
  match queue.push? (.marker ticket) with
  | some queue => queue
  | none => { queue with waiting := queue.waiting ++ [ticket] }

/-- Takes the oldest command. The place that becomes free is reserved for the first
caller in line. -/
def pop? (queue : Queue τ) : Option (Command τ × Queue τ) :=
  match queue.items with
  | [] => none
  | command :: items =>
      match queue.waiting with
      | [] => some (command, { queue with items })
      | ticket :: waiting =>
          some (command,
            { queue with items, waiting, reserved := queue.reserved ++ [ticket] })

/-- Puts the markers of the callers with a reserved place at the end. -/
def deposit (queue : Queue τ) : Queue τ :=
  { queue with items := queue.items ++ queue.reserved.map .marker, reserved := [] }

/-- The events in a queue. -/
def events (queue : Queue τ) : List (Event τ) :=
  queue.items.filterMap fun
    | .event event => some event
    | .marker _ => none

/-- The callers whose marker is in a queue. -/
def markers (queue : Queue τ) : List Nat :=
  queue.items.filterMap fun
    | .event _ => none
    | .marker ticket => some ticket

/-- What the callers in a queue are answered when it is closed, the latest answer first. A
caller whose marker stands in the queue learns that the machine has stopped. The others find
the queue closed, also those for whom a place was reserved. -/
def turnedDown (queue : Queue τ) : List (Nat × Except MachineError Unit) :=
  let stopped (ticket : Nat) : Nat × Except MachineError Unit := (ticket, .error .stopped)
  let notRunning (ticket : Nat) : Nat × Except MachineError Unit := (ticket, .error .notRunning)
  (queue.markers.map stopped ++ (queue.reserved ++ queue.waiting).map notRunning).reverse

@[simp] theorem items_empty (capacity : Option Nat) :
    (empty capacity : Queue τ).items = [] := rfl

/-- Pushing is refused exactly by a full queue. -/
theorem push?_eq_none_iff (queue : Queue τ) (command : Command τ) :
    queue.push? command = none ↔ queue.isFull = true := by
  simp [push?]

/-- What is pushed comes last. -/
theorem items_of_push?_eq_some
    {queue larger : Queue τ}
    {command : Command τ}
    (pushed : queue.push? command = some larger) :
    larger.items = queue.items ++ [command] := by
  simp only [push?] at pushed
  split at pushed
  · contradiction
  · cases pushed
    rfl

/-- An event that is pushed comes behind all other events. -/
theorem events_of_push?_event
    {queue larger : Queue τ}
    {event : Event τ}
    (pushed : queue.push? (.event event) = some larger) :
    larger.events = queue.events ++ [event] := by
  simp [events, items_of_push?_eq_some pushed]

/-- A marker that is pushed leaves the events alone. -/
theorem events_of_push?_marker
    {queue larger : Queue τ}
    {ticket : Nat}
    (pushed : queue.push? (.marker ticket) = some larger) :
    larger.events = queue.events := by
  simp [events, items_of_push?_eq_some pushed]

/-- A caller who waits leaves the events alone. -/
@[simp] theorem events_enroll (queue : Queue τ) (ticket : Nat) :
    (queue.enroll ticket).events = queue.events := by
  unfold enroll
  split
  · rename_i pushed
    exact events_of_push?_marker pushed
  · rfl

/-- What is taken was the oldest command, and the others stay. -/
theorem items_of_pop?_eq_some
    {queue rest : Queue τ}
    {command : Command τ}
    (popped : queue.pop? = some (command, rest)) :
    queue.items = command :: rest.items := by
  unfold pop? at popped
  split at popped
  · contradiction
  · rename_i first items holds
    split at popped <;> cases popped <;> exact holds

/-- Only an empty queue has nothing to take. -/
theorem pop?_eq_none_iff (queue : Queue τ) : queue.pop? = none ↔ queue.items = [] := by
  unfold pop?
  split
  · rename_i holds
    simp [holds]
  · rename_i first items holds
    split <;> simp [holds]

/-- Deposited markers leave the events alone. -/
@[simp] theorem events_deposit (queue : Queue τ) : queue.deposit.events = queue.events := by
  simp [events, deposit, List.filterMap_map]

end Queue
end Statechart
