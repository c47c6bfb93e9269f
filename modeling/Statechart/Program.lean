import Statechart.Event
import Statechart.Failure
import Statechart.Log
import Statechart.MachineError
import Statechart.Snapshot

/-!
# Programs of callbacks

A callback may use its machine while it runs: it may queue events, look at the published
snapshot and write log records. A program describes these requests one after the other
and ends with a result. A callback is a program that also passes on the state of its
client.
-/

namespace Statechart

/-- What a callback asks of its machine, and what it makes of the answers. -/
inductive Program (κ τ α : Type)
  /-- The end, with a result. -/
  | done (result : α)
  /-- Queues an event and goes on with the machine's answer. -/
  | fire (event : Event τ) (next : Except MachineError Unit → Program κ τ α)
  /-- Looks at the machine and goes on with what it sees. -/
  | look (next : View κ → Program κ τ α)
  /-- Writes a log record. -/
  | log (entry : Log.Entry) (next : Program κ τ α)

namespace Program

variable {κ τ α β : Type}

/-- Goes on with another program that depends on the result. -/
def bind (program : Program κ τ α) (continuation : α → Program κ τ β) : Program κ τ β :=
  match program with
  | .done result => continuation result
  | .fire event next => .fire event fun answer => (next answer).bind continuation
  | .look next => .look fun view => (next view).bind continuation
  | .log entry next => .log entry (next.bind continuation)

instance : Monad (Program κ τ) where
  pure := .done
  bind := bind

/-- Whether a program queues no event, whatever it sees. -/
def IsQuiet : Program κ τ α → Prop
  | .done _ => True
  | .fire _ _ => False
  | .look next => ∀ view, (next view).IsQuiet
  | .log _ next => next.IsQuiet

@[simp] theorem done_bind (result : α) (continuation : α → Program κ τ β) :
    (Program.done result).bind continuation = continuation result := rfl

end Program

/-- A program that passes on the state of its client. -/
abbrev Callback (κ τ ω α : Type) := ω → Program κ τ (α × ω)

end Statechart
