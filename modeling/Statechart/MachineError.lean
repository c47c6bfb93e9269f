import Statechart.Checkpoint.Basic

/-!
# Machine errors

What a machine answers to a call that it cannot carry out. Failures while an event is
processed are reported to observers instead.
-/

namespace Statechart

/-- Why a machine refuses a call. -/
inductive MachineError
  | notRunning
  | alreadyStarted
  | stopped
  | noRuntime
  | queueFull (capacity : Nat)
  | workerGone
  | checkpoint (cause : CheckpointError)
  deriving DecidableEq

namespace MachineError

/-- The text of an error. -/
def message : MachineError → String
  | .notRunning => "State machine is not running"
  | .alreadyStarted => "State machine has already been started"
  | .stopped => "State machine has been stopped and cannot be restarted"
  | .noRuntime => "No Tokio runtime available. Start the machine from within a runtime"
  | .queueFull capacity => s!"Event queue is full (capacity {capacity})"
  | .workerGone => "State machine worker terminated unexpectedly"
  | .checkpoint cause => "Cannot resume from checkpoint: " ++ cause.message

/-- The texts of the causes below an error. -/
def causes : MachineError → List String
  | .checkpoint cause => [cause.message]
  | _ => []

end MachineError
end Statechart
