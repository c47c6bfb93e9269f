import Statechart.Notification.Basic

/-!
# The world of a rehearsal

A rehearsal runs machines whose callbacks follow scripts. Its world counts the calls of
every callback, gives labels to events, and notes what the callbacks do. The machine may
be out of reach of its callbacks.
-/

namespace Statechart
namespace Rehearsal

/-- The triggers of a rehearsal: words and numbers. -/
inductive Trigger
  | word (text : String)
  | number (value : Int)
  deriving DecidableEq

instance : Inspect Trigger where
  inspect
    | .word text => inspect text
    | .number value => inspect value

/-- The label of the cause of an event. -/
inductive CauseLabel
  /-- The event has no cause. -/
  | none
  /-- The cause has no label. -/
  | unknown
  | label (text : String)
  deriving DecidableEq

/-- The labels of an event at some moment. -/
structure EventLabels where
  /-- The label of the event itself. -/
  id : Option String
  /-- The label of its cause. -/
  cause : CauseLabel
  deriving DecidableEq

/-- Something that a scripted callback did. -/
inductive Note (κ : Type)
  /-- A guard was called, with the payload that it saw. -/
  | guard (label : String) (payload : Option Payload)
  /-- An action was called, with the payload that it saw. -/
  | action (label : String) (payload : Option Payload)
  /-- A state was entered or left. -/
  | state (label : String)
  /-- A callback looked at its machine, if it could reach it. -/
  | probe (view : Option (View κ))
  /-- A callback queued an event, if it could reach its machine. -/
  | fire (trigger : Trigger) (answer : Option (Except MachineError Unit))
  /-- An observer was notified. -/
  | notified (label : String) (notification : Notification κ Trigger) (labels : EventLabels)

/-- The world of a rehearsal. -/
structure World (κ : Type) where
  /-- How often each callback was called. -/
  calls : List (Nat × Nat)
  /-- What the callbacks did, the latest first. -/
  notes : List (Note κ)
  /-- The labels given to events, the latest first. -/
  labels : List (String × Uuid)
  /-- How many events were made. -/
  events : Nat
  /-- Whether the callbacks can reach their machine. -/
  attached : Bool

namespace World

variable {κ : Type}

/-- The world before anything happened. -/
def initial : World κ := ⟨[], [], [], 0, true⟩

/-- Adds a note. -/
def note (world : World κ) (entry : Note κ) : World κ :=
  { world with notes := entry :: world.notes }

/-- How often a callback was called. -/
def callsOf (world : World κ) (callback : Nat) : Nat :=
  ((world.calls.find? fun count => count.1 == callback).map Prod.snd).getD 0

/-- Counts a call of a callback. -/
def countCall (world : World κ) (callback : Nat) : World κ :=
  { world with
    calls := (callback, world.callsOf callback + 1) ::
      world.calls.filter fun count => count.1 != callback }

/-- The event with a label. -/
def labelled? (world : World κ) (label : String) : Option Uuid :=
  (world.labels.find? fun entry => entry.1 == label).map Prod.snd

/-- The label of an event. -/
def labelOf? (world : World κ) (id : Uuid) : Option String :=
  (world.labels.find? fun entry => entry.2 == id).map Prod.fst

/-- The labels of an event. -/
def labelsOf (world : World κ) (event : Event Trigger) : EventLabels where
  id := world.labelOf? event.id
  cause := match event.cause with
    | none => .none
    | some cause =>
        match world.labelOf? cause with
        | none => .unknown
        | some text => .label text

end World

/-- An event that a script asks for. -/
structure EventScript where
  trigger : Trigger
  payload : Payload
  /-- The label given to the event. -/
  label : Option String
  /-- The label of the event that causes it. -/
  cause : Option String

namespace EventScript

variable {κ : Type}

/-- The name under which an observer refers to the event that it is told about. -/
def currentEvent : String := "event"

/-- The identity of a cause. A label that nobody has stands for an event of its own. -/
def causeId (current : Option Uuid) (world : World κ) (label : String) : Uuid :=
  match current with
  | some id => if label = currentEvent then id else known
  | none => known
where
  /-- The event with the label. -/
  known : Uuid := (world.labelled? label).getD Uuid.nil

/-- Makes the event of a script. Every event has an identity of its own. -/
def make (script : EventScript) (current : Option Uuid) (world : World κ) :
    Event Trigger × World κ :=
  let id := Uuid.ofNat (world.events + 1)
  let event := (Event.new id script.trigger).withPayload script.payload
  let event := match script.cause with
    | none => event
    | some label => event.causedBy (causeId current world label)
  let labels := match script.label with
    | none => world.labels
    | some label => (label, id) :: world.labels
  (event, { world with labels, events := world.events + 1 })

end EventScript
end Rehearsal
end Statechart
