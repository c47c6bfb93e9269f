import Statechart.Notification.Basic

/-!
# The logging observer

An observer that writes a log record for every notification. States appear by name.
-/

namespace Statechart

variable {κ τ ω : Type} [StateKey κ] [Inspect τ]

/-- The inspection text of the names of some states. -/
def inspectNames (states : List κ) : Log.Value :=
  .text (inspect (states.map StateKey.name))

/-- The log record for a notification of the machine with the given name. -/
def Notification.logEntry (machine : String) : Notification κ τ → Log.Entry
  | .begin context =>
      ⟨.debug, "transition begin",
        [("machine", .text machine), ("trigger", .text (inspect context.event.trigger)),
          ("sequence", .number context.event.sequence),
          ("active", inspectNames context.active)]⟩
  | .completed before after context =>
      ⟨.info, "transition completed",
        [("machine", .text machine), ("trigger", .text (inspect context.event.trigger)),
          ("transition", .text (context.transition.getD "")),
          ("from", inspectNames before), ("to", inspectNames after)]⟩
  | .declined context =>
      ⟨.debug, "transition declined",
        [("machine", .text machine), ("trigger", .text (inspect context.event.trigger)),
          ("active", inspectNames context.active)]⟩
  | .exception context error =>
      ⟨.warn, "transition exception",
        [("machine", .text machine), ("trigger", .text (inspect context.event.trigger)),
          ("state", .text error.state), ("error", .text error.message)]⟩
  | .lifecycle phase active error =>
      ⟨.warn, "lifecycle exception",
        [("machine", .text machine), ("phase", .text phase.name),
          ("state", .text error.state), ("active", inspectNames active),
          ("error", .text error.message)]⟩

/-- The observer that logs every notification under the name of a machine. -/
def loggingObserver (machine : String) : Observer κ τ ω := fun notification world =>
  .log (notification.logEntry machine) (.done (.returned (), world))

end Statechart
