import Statechart.Machine.Worker

/-!
# Machines

A machine is created from a definition, started once, fed with events and stopped once.
Callers only queue events and requests. The worker handles one command at a time; the
caller decides when it gets to do so.
-/

namespace Statechart

/-- A machine with all of its state. -/
structure Machine (κ τ ω : Type) where
  definition : Definition κ τ ω
  session : Session κ τ ω
  /-- The worker, from the start to the end. -/
  worker : Option (Worker κ)
  /-- How many callers have asked to wait. -/
  tickets : Nat
  /-- What callers who waited were answered, the latest first. -/
  answers : List (Nat × Except MachineError Unit)

namespace Machine

variable {κ τ ω : Type} [DecidableEq κ] [StateKey κ] [DecidableEq τ] [Inspect τ]

/-- A machine that has not been started. -/
def new (definition : Definition κ τ ω) (clock : Timestamp) (world : ω) :
    Machine κ τ ω where
  definition
  session := Session.initial definition.settings clock world
  worker := none
  tickets := 0
  answers := []

/-- The name of a machine. -/
def name (machine : Machine κ τ ω) : String :=
  machine.definition.settings.name

/-- Whether a machine runs. -/
def isRunning (machine : Machine κ τ ω) : Bool :=
  machine.session.isRunning

/-- What a machine shows of itself. -/
def snapshot (machine : Machine κ τ ω) : Snapshot κ :=
  machine.session.published

/-- The active leaves as of the last event. -/
def currentStates (machine : Machine κ τ ω) : List κ :=
  machine.snapshot.active

/-- The way down from the root to an active leaf. -/
def activePath? (machine : Machine κ τ ω) (leaf : κ) : Option (List κ) :=
  match machine.currentStates.contains leaf, machine.definition.graph.indexOf? leaf with
  | false, _ => none
  | true, none => some []
  | true, some state =>
      some (machine.definition.graph.keys (machine.definition.graph.chain state)).reverse

/-- Captures the position of a machine under a given identity. -/
def checkpoint (machine : Machine κ τ ω) (id : Uuid) : Checkpoint κ :=
  { version := Checkpoint.supportedVersion
    id
    machine := machine.name
    timestamp := machine.session.clock
    active := machine.snapshot.active
    history := machine.snapshot.history
    metadata := machine.snapshot.metadata }

/-- The machine with another state of its client. -/
def withWorld (machine : Machine κ τ ω) (world : ω) : Machine κ τ ω :=
  { machine with session := { machine.session with world } }

/-- The worker before it has entered or restored anything. -/
def freshWorker (machine : Machine κ τ ω) : Worker κ :=
  ⟨Configuration.empty machine.definition.graph.size, machine.snapshot.history,
    ⟨machine.session.clock, machine.session.clock, 0⟩⟩

/-- Sets a machine running if it can be, with the worker made by a beginning. The number
is that of the last event before the start. Starting takes a runtime to run in. -/
def launch
    (machine : Machine κ τ ω)
    (hasRuntime : Bool)
    (number : UInt64)
    (beginning : Session κ τ ω → Worker κ × Session κ τ ω) :
    Except MachineError Unit × Machine κ τ ω :=
  match machine.session.phase with
  | .running => (.error .alreadyStarted, machine)
  | .stopped => (.error .stopped, machine)
  | .created =>
      if hasRuntime then
        let session := { machine.session with phase := .running, number }
        let (worker, session) := beginning session
        (.ok (),
          { machine with
            worker := some worker
            session := worker.publish machine.definition session })
      else (.error .noRuntime, machine)

/-- Starts a machine in its initial configuration. -/
def start (machine : Machine κ τ ω) (hasRuntime : Bool) :
    Except MachineError Unit × Machine κ τ ω :=
  machine.launch hasRuntime 0 (machine.freshWorker.enterInitial machine.definition)

/-- The configuration of a checkpoint in a graph. -/
def configurationOf (graph : Graph κ) (checkpoint : Checkpoint κ) :
    Except CheckpointError Configuration :=
  match checkpoint.active.find? fun key => (graph.indexOf? key).isNone with
  | some key => .error (.unknownState (StateKey.name key))
  | none =>
      (Configuration.ofLeaves graph (checkpoint.active.filterMap graph.indexOf?)).mapError
        fun state => .inconsistentConfiguration (graph.nameOf state)

/-- Starts a machine at the position of a checkpoint. No state is entered. -/
def startFrom
    (machine : Machine κ τ ω)
    (checkpoint : Checkpoint κ)
    (hasRuntime : Bool) : Except MachineError Unit × Machine κ τ ω :=
  let machine :=
    if checkpoint.machine = machine.name then machine
    else
      { machine with
        session := machine.session.note (.renamed checkpoint.machine checkpoint.id) }
  match configurationOf machine.definition.graph checkpoint with
  | .error error => (.error (.checkpoint error), machine)
  | .ok configuration =>
      machine.launch hasRuntime checkpoint.metadata.count fun session =>
        (⟨configuration, checkpoint.history, checkpoint.metadata⟩, session.note .restored)

/-- Queues an event. -/
def fire (machine : Machine κ τ ω) (event : Event τ) :
    Except MachineError Unit × Machine κ τ ω :=
  let (answer, session) := machine.session.fire event
  (answer, { machine with session })

/-- Asks to wait until everything queued so far has been handled. The number is that of
the answer to come. -/
def settle (machine : Machine κ τ ω) : Except MachineError Nat × Machine κ τ ω :=
  match machine.session.phase with
  | .created | .stopped => (.error .notRunning, machine)
  | .running =>
      let ticket := machine.tickets
      let session := { machine.session with queue := machine.session.queue.enroll ticket }
      (.ok ticket, { machine with session, tickets := ticket + 1 })

/-- The answer to a caller who asked to wait. -/
def answer? (machine : Machine κ τ ω) (ticket : Nat) : Option (Except MachineError Unit) :=
  (machine.answers.find? fun answer => answer.1 == ticket).map Prod.snd

/-- Asks a machine to stop. From then on it accepts nothing. -/
def requestStop (machine : Machine κ τ ω) : Except MachineError Unit × Machine κ τ ω :=
  match machine.session.phase with
  | .created => (.error .notRunning, machine)
  | .stopped => (.error .stopped, machine)
  | .running =>
      (.ok (), { machine with session := { machine.session with phase := .stopped } })

/-- Ends a machine that was asked to stop. Queued events are thrown away, callers who
wait are turned down, and every active state is left. -/
def finish (machine : Machine κ τ ω) (worker : Worker κ) : Machine κ τ ω :=
  let queue := machine.session.queue
  let count := queue.events.length
  let session := { machine.session with queue := Queue.empty queue.capacity }
  let session := if count = 0 then session else session.note (.discarded count)
  let (worker, session) := worker.shutdown machine.definition session
  { machine with
    session := session.note (.stopped worker.metadata.processed)
    worker := none
    answers := queue.turnedDown ++ machine.answers }

/-- Lets the worker handle one command. A request to stop comes before everything in the
queue. -/
def advance (machine : Machine κ τ ω) : Machine κ τ ω :=
  match machine.worker with
  | none => machine
  | some worker =>
      if machine.session.phase = .stopped then machine.finish worker
      else
        match machine.session.queue.pop? with
        | some (.event event, queue) =>
            let (worker, session) :=
              worker.process machine.definition event { machine.session with queue }
            { machine with worker := some worker, session }
        | some (.marker ticket, queue) =>
            { machine with
              session := { machine.session with queue }
              answers := (ticket, .ok ()) :: machine.answers }
        | none => machine

/-- Whether the worker has something to do. -/
def isBusy (machine : Machine κ τ ω) : Bool :=
  machine.worker.isSome &&
    (machine.session.phase == .stopped || !machine.session.queue.items.isEmpty)

/-- Lets the worker handle commands until it has nothing to do, but no more than a given
number of them. -/
def run : Nat → Machine κ τ ω → Machine κ τ ω
  | 0, machine => machine
  | bound + 1, machine => if machine.isBusy then run bound machine.advance else machine

/-- How many commands a worker handles before it lets the callers have their turn. -/
def turnLength : Nat := 128

/-- A turn of the worker, and then one of the callers: those who have got a place in the
queue put their markers there. -/
def turn (machine : Machine κ τ ω) : Machine κ τ ω :=
  let machine := machine.run turnLength
  { machine with
    session := { machine.session with queue := machine.session.queue.deposit } }

/-- Stops a machine. -/
def stop (machine : Machine κ τ ω) : Except MachineError Unit × Machine κ τ ω :=
  let (answer, machine) := machine.requestStop
  match answer with
  | .error error => (.error error, machine)
  | .ok () => (.ok (), machine.advance)

end Machine
end Statechart
