import Statechart.Program

/-!
# Guards and actions

A guard decides whether a transition may be taken, and an action runs when it is taken.
Either may expect a payload of one type or ignore the payload. State actions run on
entry and exit and see no payload.
-/

namespace Statechart

variable {κ τ ω : Type}

/-- What decides whether a transition may be taken. -/
inductive Guard (κ τ ω : Type)
  /-- A guard that ignores the payload. -/
  | ignoring (decision : Callback κ τ ω (Outcome Bool))
  /-- A guard for payloads of one type. -/
  | typed (type : PayloadType) (decision : type.Value → Callback κ τ ω (Outcome Bool))

/-- What runs when a transition is taken. -/
inductive Action (κ τ ω : Type)
  /-- An action that ignores the payload. -/
  | ignoring (effect : Callback κ τ ω (Outcome (Except Failure Unit)))
  /-- An action for payloads of one type. -/
  | typed (type : PayloadType)
      (effect : type.Value → Callback κ τ ω (Outcome (Except Failure Unit)))

/-- What runs when a state is entered or left. -/
structure StateAction (κ τ ω : Type) where
  effect : Callback κ τ ω (Outcome (Except Failure Unit))

/-- The mismatch between an expected type and a payload. -/
def mismatchOf (expected : PayloadType) (payload : Payload) : PayloadMismatch :=
  ⟨expected.fullName, payload.typeName⟩

namespace Guard

/-- The name of the expected payload type. -/
def expects : Guard κ τ ω → String
  | .ignoring _ => "any"
  | .typed type _ => type.fullName

/-- The answer of a guard, with a panic turned into a fault. -/
def contain : Outcome Bool → Except GuardFault Bool
  | .returned allowed => .ok allowed
  | .panicked panic => .error (.panicked panic.text)

/-- Asks a guard about a payload. A payload of another type does not reach it. -/
def evaluate (guard : Guard κ τ ω) (payload : Payload) :
    Callback κ τ ω (Except GuardFault Bool) := fun world =>
  match guard with
  | .ignoring decision =>
      (decision world).bind fun (outcome, world) => .done (contain outcome, world)
  | .typed type decision =>
      match payload.get? type with
      | none => .done (.error (.mismatch (mismatchOf type payload)), world)
      | some value =>
          (decision value world).bind fun (outcome, world) => .done (contain outcome, world)

instance : Inspect (Guard κ τ ω) where
  inspect guard := inspectRecord "Guard" [("expects", inspect guard.expects)]

end Guard

namespace Action

/-- The name of the expected payload type. -/
def expects : Action κ τ ω → String
  | .ignoring _ => "any"
  | .typed type _ => type.fullName

/-- Runs an action on a payload. A payload of another type does not reach it. -/
def invoke (action : Action κ τ ω) (payload : Payload) :
    Callback κ τ ω (Except Failure Unit) := fun world =>
  match action with
  | .ignoring effect =>
      (effect world).bind fun (outcome, world) => .done (Failure.contain outcome, world)
  | .typed type effect =>
      match payload.get? type with
      | none => .done (.error (.mismatch (mismatchOf type payload)), world)
      | some value =>
          (effect value world).bind fun (outcome, world) =>
            .done (Failure.contain outcome, world)

instance : Inspect (Action κ τ ω) where
  inspect action := inspectRecord "Action" [("expects", inspect action.expects)]

end Action

namespace StateAction

/-- Runs a state action. -/
def invoke (action : StateAction κ τ ω) : Callback κ τ ω (Except Failure Unit) :=
  fun world =>
    (action.effect world).bind fun (outcome, world) => .done (Failure.contain outcome, world)

instance : Inspect (StateAction κ τ ω) where
  inspect _ := "StateAction"

end StateAction
end Statechart
