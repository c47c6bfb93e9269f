import Statechart.Proofs.Machine.Checkpoint
import Statechart.Proofs.Machine.Definition

/-!
# Runs of a machine

A run begins with a start or with a checkpoint, and then anything may happen: callers
queue events, wait, or ask for the end, the worker handles commands, and time passes. A
machine that has begun does not begin again.
-/

namespace Statechart

variable {κ τ ω : Type}

/-- How a machine begins. -/
inductive Beginning (κ : Type)
  /-- It enters its initial configuration. -/
  | start
  /-- It takes over the position of a checkpoint. -/
  | restore (checkpoint : Checkpoint κ)

/-- What can happen to a machine after it has begun. -/
inductive Operation (κ τ ω : Type)
  /-- A caller tries to start it again. -/
  | start (hasRuntime : Bool)
  /-- A caller tries to start it from a checkpoint. -/
  | startFrom (checkpoint : Checkpoint κ) (hasRuntime : Bool)
  /-- A caller queues an event. -/
  | fire (event : Event τ)
  /-- A caller asks to wait. -/
  | settle
  /-- A caller asks for the end. -/
  | requestStop
  /-- The worker handles a command. -/
  | advance
  /-- The callers with a reserved place put their markers in the queue. -/
  | deposit
  /-- The client changes its state. -/
  | change (world : ω)
  /-- Time passes. -/
  | pass (clock : Timestamp)

namespace Machine

variable [DecidableEq κ] [StateKey κ] [DecidableEq τ] [Inspect τ]

/-- Begins a machine from within a runtime. -/
def begin (machine : Machine κ τ ω) :
    Beginning κ → Except MachineError Unit × Machine κ τ ω
  | .start => machine.start true
  | .restore checkpoint => machine.startFrom checkpoint true

/-- The machine after something has happened to it. -/
def apply (machine : Machine κ τ ω) : Operation κ τ ω → Machine κ τ ω
  | .start hasRuntime => (machine.start hasRuntime).2
  | .startFrom checkpoint hasRuntime => (machine.startFrom checkpoint hasRuntime).2
  | .fire event => (machine.fire event).2
  | .settle => machine.settle.2
  | .requestStop => machine.requestStop.2
  | .advance => machine.advance
  | .deposit =>
      { machine with
        session := { machine.session with queue := machine.session.queue.deposit } }
  | .change world => machine.withWorld world
  | .pass clock => { machine with session := { machine.session with clock } }

/-- The machine after several operations. -/
def perform (machine : Machine κ τ ω) (operations : List (Operation κ τ ω)) :
    Machine κ τ ω :=
  operations.foldl apply machine

end Machine

namespace Beginning

variable [DecidableEq κ] [StateKey κ]

/-- The configuration before the first step of a run. -/
def origin (graph : Graph κ) : Beginning κ → Configuration
  | .start => Configuration.empty graph.size
  | .restore checkpoint =>
      (Machine.configurationOf graph checkpoint).toOption.getD (Configuration.empty graph.size)

/-- A start, or a checkpoint with a complete configuration. -/
def IsComplete (graph : Graph κ) : Beginning κ → Prop
  | .start => True
  | .restore checkpoint =>
      ∀ configuration, Machine.configurationOf graph checkpoint = .ok configuration →
        configuration.IsComplete graph

/-- Every run begins in a consistent configuration. -/
theorem isConsistent_origin
    {graph : Graph κ}
    (forest : graph.IsForest)
    (beginning : Beginning κ) :
    (beginning.origin graph).IsConsistent graph := by
  cases beginning with
  | start => exact Configuration.isConsistent_empty graph
  | restore checkpoint =>
      rw [origin]
      cases restored : Machine.configurationOf graph checkpoint with
      | error problem => exact Configuration.isConsistent_empty graph
      | ok configuration =>
          exact Machine.isConsistent_of_configurationOf forest restored

end Beginning

namespace Machine

variable {machine : Machine κ τ ω}

/-- A machine that has begun does not begin again. -/
theorem launch_of_begun
    (begun : machine.session.phase ≠ .created)
    (hasRuntime : Bool)
    (number : UInt64)
    (first : Session κ τ ω → Worker κ × Session κ τ ω) :
    (machine.launch hasRuntime number first).2 = machine := by
  unfold launch
  split
  · rfl
  · rfl
  · contradiction

/-- A machine that has not begun can begin. -/
theorem launch_of_created
    (created : machine.session.phase = .created)
    (number : UInt64)
    (first : Session κ τ ω → Worker κ × Session κ τ ω) :
    machine.launch true number first =
      (.ok (),
        let begun := first { machine.session with phase := .running, number }
        { machine with
          worker := some begun.1
          session := begun.1.publish machine.definition begun.2 }) := by
  unfold launch
  split
  · rename_i running
    rw [created] at running
    contradiction
  · rename_i stopped
    rw [created] at stopped
    contradiction
  · rfl

/-- The machine after it has compared its name with the one in a checkpoint. -/
def comparingName (machine : Machine κ τ ω) (checkpoint : Checkpoint κ) : Machine κ τ ω :=
  if checkpoint.machine = machine.name then machine
  else
    { machine with
      session := machine.session.note (.renamed checkpoint.machine checkpoint.id) }

/-- At most the other name is noted. -/
theorem comparingName_cases (machine : Machine κ τ ω) (checkpoint : Checkpoint κ) :
    machine.comparingName checkpoint = machine ∨
      machine.comparingName checkpoint =
        { machine with
          session := machine.session.note (.renamed checkpoint.machine checkpoint.id) } := by
  unfold comparingName
  split
  · exact .inl rfl
  · exact .inr rfl

@[simp] theorem definition_comparingName (machine : Machine κ τ ω) (checkpoint : Checkpoint κ) :
    (machine.comparingName checkpoint).definition = machine.definition := by
  rcases machine.comparingName_cases checkpoint with same | noted
  · rw [same]
  · rw [noted]

@[simp] theorem worker_comparingName (machine : Machine κ τ ω) (checkpoint : Checkpoint κ) :
    (machine.comparingName checkpoint).worker = machine.worker := by
  rcases machine.comparingName_cases checkpoint with same | noted
  · rw [same]
  · rw [noted]

@[simp] theorem phase_comparingName (machine : Machine κ τ ω) (checkpoint : Checkpoint κ) :
    (machine.comparingName checkpoint).session.phase = machine.session.phase := by
  rcases machine.comparingName_cases checkpoint with same | noted
  · rw [same]
  · rw [noted]
    rfl

section Restore

variable [DecidableEq κ] [StateKey κ]

/-- A machine compares names before it tries to begin. -/
theorem startFrom_eq
    (machine : Machine κ τ ω)
    (checkpoint : Checkpoint κ)
    (hasRuntime : Bool) :
    machine.startFrom checkpoint hasRuntime =
      match configurationOf machine.definition.graph checkpoint with
      | .error problem => (.error (.checkpoint problem), machine.comparingName checkpoint)
      | .ok configuration =>
          (machine.comparingName checkpoint).launch hasRuntime checkpoint.metadata.count
            fun session =>
              (⟨configuration, checkpoint.history, checkpoint.metadata⟩,
                session.note .restored) := by
  rw [← machine.definition_comparingName checkpoint]
  rfl

/-- A machine that has begun turns a checkpoint down. -/
theorem startFrom_of_begun
    (begun : machine.session.phase ≠ .created)
    (checkpoint : Checkpoint κ)
    (hasRuntime : Bool) :
    (machine.startFrom checkpoint hasRuntime).2 = machine.comparingName checkpoint := by
  rw [startFrom_eq]
  split
  · rfl
  · rw [launch_of_begun]
    rwa [phase_comparingName]

/-- A machine that has not begun takes over the position of a checkpoint. -/
theorem startFrom_of_created
    (created : machine.session.phase = .created)
    {checkpoint : Checkpoint κ}
    {configuration : Configuration}
    (restored : configurationOf machine.definition.graph checkpoint = .ok configuration) :
    machine.startFrom checkpoint true =
      (.ok (),
        let compared := machine.comparingName checkpoint
        let worker : Worker κ := ⟨configuration, checkpoint.history, checkpoint.metadata⟩
        let session : Session κ τ ω :=
          { compared.session with phase := .running, number := checkpoint.metadata.count }
        { compared with
          worker := some worker
          session := worker.publish machine.definition (session.note .restored) }) := by
  rw [startFrom_eq, restored]
  simp only
  rw [launch_of_created ((machine.phase_comparingName checkpoint).trans created),
    definition_comparingName]

/-- A machine that has not begun accepts the checkpoints that stand for a configuration. -/
theorem startFrom_accepts_iff
    (created : machine.session.phase = .created)
    {checkpoint : Checkpoint κ} :
    (machine.startFrom checkpoint true).1 = .ok () ↔
      ∃ configuration,
        configurationOf machine.definition.graph checkpoint = .ok configuration := by
  cases restored : configurationOf machine.definition.graph checkpoint with
  | error problem => simp [startFrom_eq, restored]
  | ok configuration => simp [startFrom_of_created created restored]

end Restore

end Machine

/-- A machine that has begun and what has happened to it since. -/
structure Run
    [DecidableEq κ]
    [StateKey κ]
    [DecidableEq τ]
    [Inspect τ]
    (definition : Definition κ τ ω) where
  /-- The time of the beginning. -/
  clock : Timestamp
  /-- The state of the client at the beginning. -/
  world : ω
  /-- How the machine begins. -/
  beginning : Beginning κ
  /-- The machine right after the beginning. -/
  begun : Machine κ τ ω
  /-- The machine accepts the beginning. -/
  accepted : (Machine.new definition clock world).begin beginning = (.ok (), begun)
  /-- What happens afterwards. -/
  operations : List (Operation κ τ ω)

namespace Run

variable
  [DecidableEq κ]
  [StateKey κ]
  [DecidableEq τ]
  [Inspect τ]
  {definition : Definition κ τ ω}

/-- The machine at the end of a run. -/
def machine (run : Run definition) : Machine κ τ ω :=
  run.begun.perform run.operations

/-- Everything that happened in a run, the earliest first. -/
def activities (run : Run definition) : List (Activity κ τ) :=
  run.machine.session.activities

/-! ## An example -/

/-- Midnight at the beginning of a year. -/
def midnight : Timestamp :=
  ⟨⟨2000, 1, 1, by decide, by decide, by decide⟩, 0, 0, by decide, by decide, by decide⟩

/-- A machine with two regions and a transition from one to the other. The exit actions of
some states break off. -/
def crossingDraft (stuck : List String) : MachineDraft String String Unit :=
  let breakOff : StateAction String String Unit :=
    ⟨fun world => .done (.panicked .unknown, world)⟩
  let blueprint := stuck.foldl (fun blueprint state => blueprint.onExit state breakOff)
    (Blueprint.twoRegions (StateAction String String Unit))
  { MachineDraft.empty with blueprint }.addExternal "red" "cross" "loud"

/-- What the draft describes. -/
def crossing (stuck : List String) : Definition String String Unit where
  graph := (Blueprint.twoRegions Unit).graph
  table := ⟨[⟨.external "red" "cross" "loud", 1, some 4, .external⟩]⟩
  hooks := (crossingDraft stuck).blueprint.hooks
  observers := []
  settings := .standard

/-- A run in which the transition is taken once. -/
def crossingRun (stuck : List String) : Run (crossing stuck) where
  clock := midnight
  world := ()
  beginning := .start
  begun := ((Machine.new (crossing stuck) midnight ()).begin .start).2
  accepted := rfl
  operations := [.fire (.new .nil "cross"), .advance]

end Run
end Statechart
