import Statechart.Machine.Execution

/-!
# The worker of a machine

The worker owns the active configuration, the history and the counters. It enters the
first configuration, processes one event after the other, and leaves everything at the
end. After every event it publishes a snapshot before it reports how the event ended.
-/

namespace Statechart

/-- What the worker of a machine owns. -/
structure Worker (κ : Type) where
  configuration : Configuration
  history : History κ
  metadata : Metadata

namespace Worker

variable {κ τ ω : Type} [DecidableEq κ] [StateKey κ] [DecidableEq τ] [Inspect τ]

/-- The keys of the active leaves. -/
def active (definition : Definition κ τ ω) (worker : Worker κ) : List κ :=
  definition.graph.keys (worker.configuration.leaves definition.graph)

/-- What the worker shows of itself. -/
def snapshot (definition : Definition κ τ ω) (worker : Worker κ) : Snapshot κ :=
  ⟨worker.active definition, worker.history, worker.metadata⟩

/-- Publishes what the worker shows of itself. -/
def publish
    (definition : Definition κ τ ω)
    (worker : Worker κ)
    (session : Session κ τ ω) : Session κ τ ω :=
  session.publish (worker.snapshot definition)

/-- Enters the first configuration. A failing entry ends the descent, is reported, and
leaves the configuration incomplete. -/
def enterInitial
    (definition : Definition κ τ ω)
    (worker : Worker κ)
    (session : Session κ τ ω) : Worker κ × Session κ τ ω :=
  let attempt (session : Session κ τ ω) : Step → Except StepError Unit × Session κ τ ω
    | .enter state =>
        let (result, session) :=
          Definition.runStateAction session (definition.entryAction? state)
        let name := definition.graph.nameOf state
        match result with
        | .ok () => (.ok (), session)
        | .error failure =>
            (.error (.entryFailed name failure), session.note (.startFailed name failure))
    | _ => (.ok (), session)
  let progress := takeSteps attempt ((Plan.initial definition.graph).map .enter)
    worker.configuration session
  let worker := { worker with configuration := progress.configuration }
  let active := worker.active definition
  let session := match progress.failure with
    | some error =>
        progress.session.notify definition.observers (.lifecycle .start active error)
    | none => progress.session.note (.started active definition.observers.length)
  (worker, session)

/-- Counts an event, in a machine word, and publishes. -/
def finishEvent
    (definition : Definition κ τ ω)
    (worker : Worker κ)
    (session : Session κ τ ω) : Worker κ × Session κ τ ω :=
  let metadata :=
    { worker.metadata with
      count := worker.metadata.count + 1
      updatedAt := session.clock }
  let worker := { worker with metadata }
  (worker, worker.publish definition session)

/-- Reports every failure of an event. -/
def reportErrors
    (definition : Definition κ τ ω)
    (context : Context κ τ)
    (session : Session κ τ ω) : Session κ τ ω :=
  context.errors.foldl
    (fun session error => session.notify definition.observers (.exception context error))
    session

/-- Ends an event that no transition handles. -/
def decline
    (definition : Definition κ τ ω)
    (worker : Worker κ)
    (context : Context κ τ)
    (session : Session κ τ ω) : Worker κ × Session κ τ ω :=
  let (worker, session) := worker.finishEvent definition session
  let session := reportErrors definition context session
  (worker, session.notify definition.observers (.declined context))

/-- Carries out the transition selected for an event and ends the event. -/
def follow
    (definition : Definition κ τ ω)
    (worker : Worker κ)
    (entry : Entry κ τ ω)
    (context : Context κ τ)
    (session : Session κ τ ω) : Worker κ × Session κ τ ω :=
  let transition := entry.transition
  let target := entry.target.bind definition.graph.key?
  let context := context.select transition.source target transition.describe
  let progress := definition.execute entry context.event worker.configuration session
  let context := context.fail progress.failure.toList
  let moved := { worker with configuration := progress.configuration }
  let after := moved.active definition
  let recorded := match progress.failure with
    | some _ => moved
    | none =>
        { moved with
          history := moved.history.record
            ⟨context.active, after, inspect context.event.trigger, context.event.number,
              progress.session.clock⟩ }
  let (worker, session) := recorded.finishEvent definition progress.session
  let session := reportErrors definition context session
  match progress.failure with
  | some _ => (worker, session)
  | none =>
      (worker,
        session.notify definition.observers (.completed context.active after context))

/-- Processes one event to its end. -/
def process
    (definition : Definition κ τ ω)
    (worker : Worker κ)
    (event : Event τ)
    (session : Session κ τ ω) : Worker κ × Session κ τ ω :=
  let leaves := worker.configuration.leaves definition.graph
  let context := Context.new event (definition.graph.keys leaves)
  let session :=
    (session.note (.began event)).notify definition.observers (.begin context)
  let candidates := definition.table.candidatesFrom definition.graph leaves event.trigger
  let (chosen, faults, session) := definition.choose event candidates session
  let context := context.fail faults
  match chosen with
  | none => worker.decline definition context session
  | some entry => worker.follow definition entry context session

/-- Leaves states one by one. A failing exit is reported, and the state is left all the
same. -/
def leaveAll (definition : Definition κ τ ω) :
    List Nat → Worker κ → Session κ τ ω → Worker κ × Session κ τ ω
  | [], worker, session => (worker, session)
  | state :: states, worker, session =>
      let (result, session) :=
        Definition.runStateAction session (definition.exitAction? state)
      let name := definition.graph.nameOf state
      let session := match result with
        | .ok () => session
        | .error failure =>
            (session.note (.stopFailed name failure)).notify definition.observers
              (.lifecycle .stop (worker.active definition) (.exitFailed name failure))
      leaveAll definition states
        { worker with configuration := worker.configuration.deactivate state }
        (session.note (.completed (.exit state)))

/-- Leaves everything that is active and publishes. -/
def shutdown
    (definition : Definition κ τ ω)
    (worker : Worker κ)
    (session : Session κ τ ω) : Worker κ × Session κ τ ω :=
  let states := Plan.shutdown definition.graph worker.configuration
  let (worker, session) := leaveAll definition states worker session
  (worker, worker.publish definition session)

end Worker
end Statechart
