import Statechart.Program
import Statechart.StateKey
import Statechart.Transition.Basic

/-!
# Notifications

A machine tells its observers what happens: that an event begins, that it was completed
or declined, and what failed on the way. Failures at the start and at the end of a
machine belong to no event and are reported apart. An observer is a callback for every
notification; it may ignore those that it does not care for.
-/

namespace Statechart

/-- What is known about an event while it is processed. -/
structure Context (κ τ : Type) where
  event : Event τ
  /-- The active leaves when processing began. -/
  active : List κ
  /-- The state whose transition was selected. -/
  source : Option κ
  /-- The target of the selected transition. -/
  target : Option κ
  /-- The selected transition in words. -/
  transition : Option String
  /-- The failures so far, in order. -/
  errors : List StepError

namespace Context

variable {κ τ : Type}

/-- The context at the beginning of an event. -/
def new (event : Event τ) (active : List κ) : Context κ τ :=
  ⟨event, active, none, none, none, []⟩

/-- Records the selected transition. -/
def select
    (context : Context κ τ)
    (source : κ)
    (target : Option κ)
    (transition : String) : Context κ τ :=
  { context with source := some source, target, transition := some transition }

/-- Records failures. -/
def fail (context : Context κ τ) (errors : List StepError) : Context κ τ :=
  { context with errors := context.errors ++ errors }

/-- Whether a step after the selection failed. -/
def hasFailed (context : Context κ τ) : Bool :=
  context.errors.any fun error => !error.isGuardFault

end Context

/-- Which end of a machine's life a failure belongs to. -/
inductive LifecyclePhase
  | start
  | stop
  deriving DecidableEq

namespace LifecyclePhase

/-- The name of a phase. -/
def name : LifecyclePhase → String
  | .start => "start"
  | .stop => "stop"

end LifecyclePhase

/-- What observers are told. -/
inductive Notification (κ τ : Type)
  /-- An event is about to be processed. -/
  | begin (context : Context κ τ)
  /-- A transition was completed, with the active leaves before and after. -/
  | completed (before after : List κ) (context : Context κ τ)
  /-- No active state handles the event. -/
  | declined (context : Context κ τ)
  /-- A guard or a step failed. -/
  | exception (context : Context κ τ) (error : StepError)
  /-- An entry failed at the start or an exit at the end. -/
  | lifecycle (phase : LifecyclePhase) (active : List κ) (error : StepError)

namespace Notification

variable {κ τ : Type}

/-- The name of the kind of a notification. -/
def kind : Notification κ τ → String
  | .begin _ => "begin"
  | .completed .. => "completed"
  | .declined _ => "declined"
  | .exception .. => "exception"
  | .lifecycle .. => "lifecycle exception"

/-- The context of a notification about an event. -/
def context? : Notification κ τ → Option (Context κ τ)
  | .begin context => some context
  | .completed _ _ context => some context
  | .declined context => some context
  | .exception context _ => some context
  | .lifecycle .. => none

end Notification

/-- A callback for every notification. -/
abbrev Observer (κ τ ω : Type) := Notification κ τ → Callback κ τ ω (Outcome Unit)

/-- The observer that ignores everything. -/
def silentObserver {κ τ ω : Type} : Observer κ τ ω := fun _ world =>
  .done (.returned (), world)

end Statechart
