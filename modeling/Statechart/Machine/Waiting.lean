import Statechart.Machine.Basic

/-!
# Calls that wait

A caller who waits lets the worker have its turns until the answer is there. A call that
is refused at once does not wait, and the worker gets no turn.
-/

namespace Statechart
namespace Machine

variable {κ τ ω : Type} [DecidableEq κ] [StateKey κ] [DecidableEq τ] [Inspect τ]

/-- The outcome of a wait. A worker that never answers is gone. -/
def outcomeOf (machine : Machine κ τ ω) :
    Except MachineError Nat → Except MachineError Unit
  | .error error => .error error
  | .ok ticket => (machine.answer? ticket).getD (.error .workerGone)

/-- Waits for the answer to a start, which the worker gives in its first turn. -/
def awaitStart :
    Except MachineError Unit × Machine κ τ ω → Except MachineError Unit × Machine κ τ ω
  | (.error error, machine) => (.error error, machine)
  | (.ok (), machine) => (.ok (), machine.turn)

/-- Lets the worker have turns until a caller is answered, but no more than a given number
of them. -/
def runUntilAnswered (ticket : Nat) : Nat → Machine κ τ ω → Machine κ τ ω
  | 0, machine => machine
  | bound + 1, machine =>
      let machine := machine.turn
      if (machine.answer? ticket).isSome then machine
      else runUntilAnswered ticket bound machine

/-- A number of turns after which every caller is answered. A turn handles at least one
command, and a caller in line for a place has it after the first turn, with at most as
many commands in front as there are places. -/
def turnsToAnswer (machine : Machine κ τ ω) : Nat :=
  machine.session.queue.items.length + machine.session.queue.capacity.getD 0 + 1

/-- Waits until everything queued so far has been handled. -/
def awaitSettled (machine : Machine κ τ ω) : Except MachineError Unit × Machine κ τ ω :=
  match machine.settle with
  | (.error error, machine) => (.error error, machine)
  | (.ok ticket, machine) =>
      let machine := machine.runUntilAnswered ticket machine.turnsToAnswer
      (machine.outcomeOf (.ok ticket), machine)

/-- Waits while the machine is also stopped. The first answer is that of the wait. -/
def awaitSettledAndStop (machine : Machine κ τ ω) :
    Except MachineError Unit × Except MachineError Unit × Machine κ τ ω :=
  let (ticket, machine) := machine.settle
  let (answer, machine) := machine.stop
  (machine.outcomeOf ticket, answer, machine)

end Machine
end Statechart
