import Statechart.Behaviour
import Statechart.Rehearsal.Predicate
import Statechart.Rehearsal.World

/-!
# Scripted callbacks

A script says what a callback does on each of its calls: it notes that it was called,
looks at its machine, queues an event, and ends with a result. The results of successive
calls may differ.
-/

namespace Statechart
namespace Rehearsal

/-- Results by the number of the call. The last one stays. -/
structure Results (α : Type) where
  /-- The results of the first calls. -/
  scripted : List α
  /-- The result when nothing is scripted. -/
  otherwise : α

/-- The result of a call. -/
def Results.at (results : Results α) (call : Nat) : α :=
  (results.scripted[min call (results.scripted.length - 1)]?).getD results.otherwise

/-- An event that is queued on the first calls. -/
structure FireScript where
  event : EventScript
  /-- On how many calls. -/
  limit : Nat

/-- What a callback does to its machine. -/
structure Effects where
  /-- Whether it looks at the machine. -/
  probes : Bool
  /-- What it queues. -/
  fires : Option FireScript

/-- A callback is known by number and may have a label. -/
structure Identity where
  number : Nat
  label : Option String

/-- What a guard answers. -/
inductive GuardResult
  | allows (allowed : Bool)
  | breaks (panic : Panic)

/-- How an action ends. -/
inductive ActionResult
  | succeeds
  | fails (failure : Failure)
  | breaks (panic : Panic)

namespace GuardResult

/-- The end of a guard's call. -/
def outcome : GuardResult → Outcome Bool
  | .allows allowed => .returned allowed
  | .breaks panic => .panicked panic

end GuardResult

namespace ActionResult

/-- The end of an action's call. -/
def outcome : ActionResult → Outcome (Except Failure Unit)
  | .succeeds => .returned (.ok ())
  | .fails failure => .returned (.error failure)
  | .breaks panic => .panicked panic

end ActionResult

variable {κ : Type}

/-- A callback of a rehearsal. -/
abbrev Scripted (κ α : Type) := Callback κ Trigger (World κ) α

/-- Looks at the machine. -/
def probe (world : World κ) : Program κ Trigger (World κ) :=
  if world.attached then .look fun view => .done (world.note (.probe (some view)))
  else .done (world.note (.probe none))

/-- Queues an event. Without a machine no event is made. -/
def fire (script : EventScript) (current : Option Uuid) (world : World κ) :
    Program κ Trigger (World κ) :=
  if world.attached then
    let (event, world) := script.make current world
    .fire event fun answer => .done (world.note (.fire script.trigger (some answer)))
  else .done (world.note (.fire script.trigger none))

/-- Carries out the effects of a call. -/
def perform
    (effects : Effects)
    (call : Nat)
    (current : Option Uuid)
    (world : World κ) : Program κ Trigger (World κ) :=
  let probed := if effects.probes then probe world else .done world
  probed.bind fun world =>
    match effects.fires with
    | none => .done world
    | some script =>
        if call < script.limit then fire script.event current world else .done world

/-- A call of a callback: it is counted and noted, its effects are carried out, and the
result depends on the number of the call. -/
def scripted
    (identity : Identity)
    (effects : Effects)
    (entry : String → Note κ)
    (result : Nat → α) : Scripted κ α := fun world =>
  let call := world.callsOf identity.number
  let counted := world.countCall identity.number
  let noted := match identity.label with
    | none => counted
    | some label => counted.note (entry label)
  (perform effects call none noted).bind fun world => .done (result call, world)

/-- A guard that ignores the payload. -/
def guardIgnoring
    (identity : Identity)
    (effects : Effects)
    (results : Results GuardResult) : Guard κ Trigger (World κ) :=
  .ignoring (scripted identity effects (.guard · none) fun call => (results.at call).outcome)

/-- A guard for payloads of a type. With a predicate it answers that. -/
def guardTyped
    (identity : Identity)
    (effects : Effects)
    (results : Results GuardResult)
    (type : PayloadType)
    (predicate : Option (Predicate type)) : Guard κ Trigger (World κ) :=
  .typed type fun value =>
    scripted identity effects (.guard · (some ⟨type, value⟩)) fun call =>
      match predicate with
      | none => (results.at call).outcome
      | some predicate => predicate.decide value

/-- An action that ignores the payload. -/
def actionIgnoring
    (identity : Identity)
    (effects : Effects)
    (results : Results ActionResult) : Action κ Trigger (World κ) :=
  .ignoring (scripted identity effects (.action · none) fun call => (results.at call).outcome)

/-- An action for payloads of a type. Where an exemption holds it succeeds. -/
def actionTyped
    (identity : Identity)
    (effects : Effects)
    (results : Results ActionResult)
    (type : PayloadType)
    (exemption : Option (Predicate type)) : Action κ Trigger (World κ) :=
  .typed type fun value =>
    scripted identity effects (.action · (some ⟨type, value⟩)) fun call =>
      match exemption with
      | none => (results.at call).outcome
      | some predicate =>
          match predicate.decide value with
          | .returned true => .returned (.ok ())
          | .returned false => (results.at call).outcome
          | .panicked panic => .panicked panic

/-- A state action. -/
def stateAction
    (identity : Identity)
    (effects : Effects)
    (results : Results ActionResult) : StateAction κ Trigger (World κ) :=
  ⟨scripted identity effects .state fun call => (results.at call).outcome⟩

/-- What an observer does on one kind of notification. -/
structure ObserverScript where
  number : Nat
  effects : Effects
  /-- Why it breaks off in the end. -/
  panic : Option Panic

/-- An observer that notes every notification that it has a script for. -/
def observer
    (label : String)
    (scriptFor : Notification κ Trigger → Option ObserverScript) :
    Observer κ Trigger (World κ) := fun notification world =>
  match scriptFor notification with
  | none => .done (.returned (), world)
  | some script =>
      let event := notification.context?.map Context.event
      let labels := (event.map world.labelsOf).getD ⟨none, .none⟩
      let call := world.callsOf script.number
      let noted := (world.countCall script.number).note (.notified label notification labels)
      let ending : Outcome Unit := match script.panic with
        | none => .returned ()
        | some panic => .panicked panic
      (perform script.effects call (event.map Event.id) noted).bind fun world =>
        .done (ending, world)

end Rehearsal
end Statechart
