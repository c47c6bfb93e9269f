import Statechart.Payload
import Statechart.Uuid

/-!
# Events

An event has an identity, a trigger that selects transitions, a payload for guards and
actions, and possibly the identity of the event that caused it. A machine numbers the
events it accepts with machine words; an event that has not been accepted has the number
zero.
-/

namespace Statechart

/-- An occurrence that a machine can react to. -/
structure Event (τ : Type) where
  /-- The identity of the event. -/
  id : Uuid
  /-- What selects the transitions that handle the event. -/
  trigger : τ
  /-- What the event carries. -/
  payload : Payload
  /-- The identity of the event that led to this one. -/
  cause : Option Uuid
  /-- The number given on acceptance. -/
  number : UInt64

namespace Event

variable {τ : Type}

/-- An event that carries nothing and has no cause. -/
def new (id : Uuid) (trigger : τ) : Event τ :=
  ⟨id, trigger, Payload.unit, none, 0⟩

/-- The event with another payload. -/
def withPayload (event : Event τ) (payload : Payload) : Event τ :=
  { event with payload }

/-- The event with another cause. -/
def causedBy (event : Event τ) (cause : Uuid) : Event τ :=
  { event with cause := some cause }

/-- The event with its number. -/
def numbered (event : Event τ) (number : UInt64) : Event τ :=
  { event with number }

/-- The number of an event as it is shown. -/
def sequence (event : Event τ) : Nat := event.number.toNat

end Event
end Statechart
