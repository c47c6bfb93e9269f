import Statechart.Machine.Waiting
import Statechart.Rehearsal.World

/-!
# The stage of a rehearsal

Several machines are rehearsed on one stage. They share a world, in which the notes of
the last step can be found. A machine that is let go leaves the stage.
-/

namespace Statechart
namespace Rehearsal

/-- A machine in rehearsal. -/
abbrev Subject (κ : Type) := Machine κ Trigger (World κ)

/-- What is asked of a machine in one step. -/
inductive Request (κ : Type)
  | start (hasRuntime : Bool)
  | resume (checkpoint : Checkpoint κ) (hasRuntime : Bool)
  | fire (script : EventScript)
  | settle
  | stop
  | settleAndStop
  /-- Nobody keeps the machine any longer. -/
  | release

namespace Request

variable {κ : Type} [DecidableEq κ] [StateKey κ]

/-- Carries out a request. Each call that it makes has an answer. -/
def perform (machine : Subject κ) :
    Request κ → List (Except MachineError Unit) × Subject κ
  | .start hasRuntime =>
      let (answer, machine) := Machine.awaitStart (machine.start hasRuntime)
      ([answer], machine)
  | .resume checkpoint hasRuntime =>
      let (answer, machine) := Machine.awaitStart (machine.startFrom checkpoint hasRuntime)
      ([answer], machine)
  | .fire script =>
      let (event, world) := script.make none machine.session.world
      let (answer, machine) := (machine.withWorld world).fire event
      ([answer], machine)
  | .settle =>
      let (answer, machine) := machine.awaitSettled
      ([answer], machine)
  | .stop =>
      let (answer, machine) := machine.stop
      ([answer], machine)
  | .settleAndStop =>
      let (settled, stopped, machine) := machine.awaitSettledAndStop
      ([settled, stopped], machine)
  | .release =>
      let (_, machine) :=
        (machine.withWorld { machine.session.world with attached := false }).stop
      ([.ok ()], machine)

/-- Whether the machine stays on the stage after a request. -/
def keeps : Request κ → Bool
  | .release => false
  | _ => true

end Request

/-- The machines in rehearsal and the world that they share. -/
structure Stage (κ : Type) where
  machines : List (Option (Subject κ))
  world : World κ

namespace Stage

variable {κ : Type}

/-- A machine at the beginning of a step, with nothing noted yet. -/
def subject? (stage : Stage κ) (place : Nat) : Option (Subject κ) :=
  stage.machines[place]?.join.map fun machine =>
    { machine with
      session := { machine.session with
        world := { stage.world with notes := [], attached := true }
        journal := [] } }

/-- The stage after a step of a machine, which stays or leaves. -/
def settle (stage : Stage κ) (place : Nat) (machine : Subject κ) (stays : Bool) :
    Stage κ where
  machines := stage.machines.set place (if stays then some machine else none)
  world := machine.session.world

end Stage
end Rehearsal
end Statechart
