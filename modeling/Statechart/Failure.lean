import Statechart.Payload

/-!
# Failures of callbacks

A callback can fail in three ways: it reports an error, it breaks off in a panic, or it
was given a payload of a type that it does not expect. Failures during the steps of a
transition become step errors, which name the state they belong to.
-/

namespace Statechart

/-- Why a callback broke off. -/
inductive Panic
  /-- It left a text behind. -/
  | message (text : String)
  /-- It left something behind that is no text. -/
  | unknown
  deriving DecidableEq

namespace Panic

/-- The text of a panic. -/
def text : Panic → String
  | .message left => left
  | .unknown => "unknown panic"

end Panic

/-- How the call of a callback ended. -/
inductive Outcome (α : Type)
  | returned (value : α)
  | panicked (panic : Panic)
  deriving DecidableEq

/-- An error from an action. -/
inductive Failure
  /-- The payload was of another type than the action expects. -/
  | mismatch (difference : PayloadMismatch)
  /-- The action reported an error, with its causes from the nearest to the root. -/
  | reported (message : String) (causes : List String)
  deriving DecidableEq

namespace Failure

/-- The text of an error. -/
def message : Failure → String
  | .mismatch difference => difference.message
  | .reported text _ => text

/-- The texts of the causes below an error. -/
def causes : Failure → List String
  | .mismatch _ => []
  | .reported _ below => below

/-- The error with a text around it. -/
def within (failure : Failure) (context : String) : Failure :=
  .reported context (failure.message :: failure.causes)

/-- The error that stands for a panic. -/
def ofPanic (panic : Panic) : Failure :=
  .reported ("panicked: " ++ panic.text) []

/-- The result of a call, with a panic turned into an error. -/
def contain : Outcome (Except Failure Unit) → Except Failure Unit
  | .returned result => result
  | .panicked panic => .error (ofPanic panic)

@[simp] theorem causes_within (failure : Failure) (context : String) :
    (failure.within context).causes = failure.message :: failure.causes := rfl

end Failure

/-- Why a guard gave no answer. -/
inductive GuardFault
  | mismatch (difference : PayloadMismatch)
  | panicked (message : String)
  deriving DecidableEq

/-- A failure while an event was processed. -/
inductive StepError
  | guardMismatch (state trigger : String) (difference : PayloadMismatch)
  | guardPanicked (state trigger message : String)
  | actionFailed (state trigger : String) (cause : Failure)
  | entryFailed (state : String) (cause : Failure)
  | exitFailed (state : String) (cause : Failure)
  deriving DecidableEq

namespace StepError

/-- The error for a guard without an answer. -/
def ofGuardFault (state trigger : String) : GuardFault → StepError
  | .mismatch difference => .guardMismatch state trigger difference
  | .panicked text => .guardPanicked state trigger text

/-- Whether the failure only kept a guard from allowing a transition. -/
def isGuardFault : StepError → Bool
  | .guardMismatch .. | .guardPanicked .. => true
  | .actionFailed .. | .entryFailed .. | .exitFailed .. => false

/-- The name of the state that the failure belongs to. -/
def state : StepError → String
  | .guardMismatch owner _ _ => owner
  | .guardPanicked owner _ _ => owner
  | .actionFailed owner _ _ => owner
  | .entryFailed owner _ => owner
  | .exitFailed owner _ => owner

/-- The text of a failure. -/
def message : StepError → String
  | .guardMismatch owner trigger difference =>
      "guard on '" ++ owner ++ "' for trigger " ++ trigger ++ ": " ++ difference.message
  | .guardPanicked owner trigger text =>
      s!"guard on '{owner}' for trigger {trigger} panicked: {text}"
  | .actionFailed owner trigger _ =>
      s!"action of transition from '{owner}' on trigger {trigger} failed"
  | .entryFailed owner _ => s!"entry action of '{owner}' failed"
  | .exitFailed owner _ => s!"exit action of '{owner}' failed"

/-- The texts of what caused a failure, from the nearest cause to the root. -/
def causes : StepError → List String
  | .guardMismatch .. | .guardPanicked .. => []
  | .actionFailed _ _ cause => cause.message :: cause.causes
  | .entryFailed _ cause => cause.message :: cause.causes
  | .exitFailed _ cause => cause.message :: cause.causes

/-- A guard without an answer is a guard fault. -/
@[simp] theorem isGuardFault_ofGuardFault (state trigger : String) (fault : GuardFault) :
    (ofGuardFault state trigger fault).isGuardFault = true := by
  cases fault <;> rfl

/-- A guard fault names the state that it was made for. -/
@[simp] theorem state_ofGuardFault (state trigger : String) (fault : GuardFault) :
    (ofGuardFault state trigger fault).state = state := by
  cases fault <;> rfl

end StepError
end Statechart
