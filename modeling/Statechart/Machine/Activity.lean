import Statechart.Notification.Basic

/-!
# What a machine does

The journal of a machine lists its activities in order. Some of them leave a log record;
the text of the record is derived from the activity.
-/

namespace Statechart

/-- One step of a transition. -/
inductive Step
  /-- Leaving a state. -/
  | exit (state : Nat)
  /-- Running one of the actions of the transition, counted from zero. -/
  | act (position : Nat)
  /-- Entering a state. -/
  | enter (state : Nat)
  deriving DecidableEq

/-- Something that a machine did. -/
inductive Activity (κ τ : Type)
  /-- It took an event into its queue. -/
  | accepted (event : Event τ)
  /-- It had no place for an event. -/
  | refused (event : Event τ)
  /-- It showed itself to a callback. -/
  | shown (view : View κ)
  /-- It wrote a log record for a callback. -/
  | wrote (entry : Log.Entry)
  /-- It began to process an event. -/
  | began (event : Event τ)
  /-- It asked the guard of a transition from a state. -/
  | asked (source : Nat) (verdict : Except GuardFault Bool)
  /-- It selected a transition. -/
  | selected (transition : String)
  /-- It planned which states to leave and enter. -/
  | planned (exits entries : List κ)
  /-- It carried out a step. -/
  | completed (step : Step)
  /-- It failed in a step. -/
  | failed (step : Step) (error : StepError)
  /-- It published a snapshot. -/
  | published (snapshot : Snapshot κ)
  /-- It notified an observer. -/
  | notified (observer : Nat) (notification : Notification κ τ)
  /-- An observer broke off. -/
  | observerPanicked (observer : Nat) (kind message : String)
  /-- It entered its first configuration. -/
  | started (active : List κ) (observers : Nat)
  /-- It failed to enter a state at the start. -/
  | startFailed (state : String) (cause : Failure)
  /-- It took over the position of a checkpoint. -/
  | restored
  /-- It was given a checkpoint of a machine with another name. -/
  | renamed (checkpoint : String) (id : Uuid)
  /-- It threw away queued events. -/
  | discarded (count : Nat)
  /-- It failed to leave a state at the end. -/
  | stopFailed (state : String) (cause : Failure)
  /-- It came to its end. -/
  | stopped (processed : Nat)

namespace Activity

variable {κ τ : Type} [Inspect κ] [Inspect τ]

/-- The log record that an activity of a machine leaves. -/
def logEntry? (machine : String) : Activity κ τ → Option Log.Entry
  | .accepted event => some (queued event)
  | .refused event => some (queued event)
  | .wrote entry => some entry
  | .began event =>
      some ⟨.trace, "processing event",
        [("machine", .text machine), ("trigger", .text (inspect event.trigger)),
          ("sequence", .number event.sequence)]⟩
  | .selected transition =>
      some ⟨.trace, "transition selected", [("transition", .text transition)]⟩
  | .planned exits entries =>
      some ⟨.trace, "transition plan",
        [("exit", .text (inspect exits)), ("entry", .text (inspect entries))]⟩
  | .observerPanicked observer kind message =>
      some ⟨.warn, "observer panicked; notification skipped",
        [("observer", .number observer), ("notification", .text kind),
          ("message", .text message)]⟩
  | .started active observers =>
      some ⟨.info, "state machine started",
        [("machine", .text machine), ("active", .text (inspect active)),
          ("observers", .number observers)]⟩
  | .startFailed state cause =>
      some ⟨.error, "entry action failed while starting; initial configuration is incomplete",
        [("machine", .text machine), ("state", .text state), ("error", .text cause.message)]⟩
  | .restored =>
      some ⟨.info, "configuration restored from checkpoint", [("machine", .text machine)]⟩
  | .renamed checkpoint id =>
      some ⟨.warn, "restoring a checkpoint taken from a differently named machine",
        [("machine", .text machine), ("checkpoint", .text checkpoint),
          ("id", .text id.toText)]⟩
  | .discarded count =>
      some ⟨.debug, "queued events discarded on stop",
        [("machine", .text machine), ("discarded", .number count)]⟩
  | .stopFailed state cause =>
      some ⟨.warn, "exit action failed while stopping",
        [("machine", .text machine), ("state", .text state), ("error", .text cause.message)]⟩
  | .stopped processed =>
      some ⟨.info, "state machine stopped",
        [("machine", .text machine), ("processed", .number processed)]⟩
  | .shown _ | .asked .. | .completed _ | .failed .. | .published _ | .notified .. => none
where
  /-- An event that is offered to the queue is logged whether or not it finds a place. -/
  queued (event : Event τ) : Log.Entry :=
    ⟨.debug, "event queued",
      [("machine", .text machine), ("trigger", .text (inspect event.trigger)),
        ("sequence", .number event.sequence)]⟩

end Activity
end Statechart
