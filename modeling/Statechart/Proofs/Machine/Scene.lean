import Statechart.Proofs.Machine.Service
import Statechart.Proofs.Machine.Tasks

/-!
# Machines in the course of time

Between any two requests of a worker anything may happen to its machine: callers queue
events, wait, or ask for the end. A caller who asks for the end first keeps the machine from
accepting events and then tells the worker, who may go on with queued events in between.
Whenever the worker has finished a task, it looks for the word of the caller and then at the
queue, both at once. A worker that is not interrupted comes to the same as one that handles
each of its commands at a time.
-/

namespace Statechart

variable {κ τ ω : Type}

/-- What a worker can be at. -/
inductive Task (τ : Type)
  /-- It enters or restores its first configuration. -/
  | opening
  /-- It processes an event. -/
  | event (event : Event τ)
  /-- It leaves everything. -/
  | closing

/-- A machine with what its worker is at. -/
structure Scene (κ τ ω : Type) where
  /-- The machine, with the worker as it was before its task. -/
  machine : Machine κ τ ω
  /-- The task of the worker, with what is left of the work at it. -/
  hand : Option (Task τ × Work κ τ ω (Worker κ))
  /-- Whether the worker has been told to stop. -/
  told : Bool

/-- What can happen next. -/
inductive Move (κ τ ω : Type)
  /-- The worker makes a request, or anything else happens to the machine. -/
  | operation (operation : Operation κ τ ω)
  /-- The caller who has stopped the machine tells the worker. -/
  | tell

/-- The number of the last event before a beginning. -/
def Beginning.base : Beginning κ → UInt64
  | .start => 0
  | .restore checkpoint => checkpoint.metadata.count

namespace Task

/-- The worker that remains after a task. -/
def remaining (worker : Worker κ) : Task τ → Option (Worker κ)
  | .closing => none
  | _ => some worker

end Task

namespace Machine

/-- A machine whose queue has been emptied at the end. Callers who wait are turned down. -/
def close (machine : Machine κ τ ω) : Machine κ τ ω :=
  let queue := machine.session.queue
  let count := queue.events.length
  let session := { machine.session with queue := Queue.empty queue.capacity }
  { machine with
    session := if count = 0 then session else session.note (.discarded count)
    answers := queue.turnedDown ++ machine.answers }

end Machine

/-- The scene of a machine whose worker has nothing in hand and knows whether the machine has
been stopped. -/
def Machine.scene (machine : Machine κ τ ω) : Scene κ τ ω :=
  ⟨machine, none, machine.session.phase == .stopped⟩

namespace Scene

variable [DecidableEq κ] [StateKey κ] [DecidableEq τ] [Inspect τ]

/-- The worker takes up its next task, if it has one. -/
def takeUp (scene : Scene κ τ ω) : Scene κ τ ω :=
  let machine := scene.machine
  match machine.worker with
  | none => scene
  | some worker =>
      if scene.told then
        { scene with
          machine := machine.close
          hand := some (.closing, Work.shutdown machine.definition worker) }
      else
        match machine.session.queue.pop? with
        | some (.event event, queue) =>
            { scene with
              machine :=
                { machine with
                  session := { machine.session with queue }.note (.began event) }
              hand := some (.event event, Work.process machine.definition worker event) }
        | some (.marker ticket, queue) =>
            { scene with
              machine :=
                { machine with
                  session := { machine.session with queue }
                  answers := (ticket, .ok ()) :: machine.answers } }
        | none => scene

/-- The worker makes its next request, lays down a task that is done, or takes up its next
task. -/
def advance (scene : Scene κ τ ω) : Scene κ τ ω :=
  match scene.hand with
  | none => scene.takeUp
  | some (task, .done worker) =>
      { scene with
        machine := { scene.machine with worker := task.remaining worker }
        hand := none }
  | some (task, work) =>
      { scene with
        machine := { scene.machine with session := (work.step scene.machine.session).2 }
        hand := some (task, (work.step scene.machine.session).1) }

/-- The scene after something has happened. -/
def apply (scene : Scene κ τ ω) : Move κ τ ω → Scene κ τ ω
  | .operation .advance => scene.advance
  | .operation operation => { scene with machine := scene.machine.apply operation }
  | .tell => { scene with told := scene.told || scene.machine.session.phase == .stopped }

/-- The scene after several moves. -/
def perform (scene : Scene κ τ ω) (moves : List (Move κ τ ω)) : Scene κ τ ω :=
  moves.foldl apply scene

/-- The scene after the worker has finished its task without interruption. -/
def complete (scene : Scene κ τ ω) : Scene κ τ ω :=
  match scene.hand with
  | none => scene
  | some (task, work) =>
      let (worker, session) := work.run scene.machine.session
      { scene with
        machine := { scene.machine with session, worker := task.remaining worker }
        hand := none }

/-! ## The beginning -/

/-- A machine that has just been set running. The number is that of the last event before
the start. -/
def launched
    (machine : Machine κ τ ω)
    (number : UInt64)
    (opening : Work κ τ ω (Worker κ)) : Scene κ τ ω where
  machine := { machine with session := { machine.session with phase := .running, number } }
  hand := some (.opening, Work.thenPublish machine.definition opening)
  told := false

/-- A machine that has not begun is set running. -/
def begin (machine : Machine κ τ ω) :
    Beginning κ → Except CheckpointError (Scene κ τ ω)
  | .start =>
      .ok (launched machine 0 (Work.enterInitial machine.definition machine.freshWorker))
  | .restore checkpoint =>
      match Machine.configurationOf machine.definition.graph checkpoint with
      | .error problem => .error problem
      | .ok configuration =>
          .ok (launched (machine.comparingName checkpoint) checkpoint.metadata.count
            (.note _ .restored (.done ⟨configuration, checkpoint.history, checkpoint.metadata⟩)))

/-! ## Workers that are not interrupted -/

@[simp] theorem perform_nil (scene : Scene κ τ ω) : scene.perform [] = scene := rfl

@[simp] theorem perform_cons
    (scene : Scene κ τ ω)
    (move : Move κ τ ω)
    (moves : List (Move κ τ ω)) :
    scene.perform (move :: moves) = (scene.apply move).perform moves := rfl

theorem perform_append (scene : Scene κ τ ω) (earlier later : List (Move κ τ ω)) :
    scene.perform (earlier ++ later) = (scene.perform earlier).perform later :=
  List.foldl_append

/-- A worker finishes its work if it goes on long enough. -/
theorem exists_perform_eq_complete_of_work
    (work : Work κ τ ω (Worker κ))
    (task : Task τ)
    (machine : Machine κ τ ω)
    (told : Bool) :
    ∃ count, (⟨machine, some (task, work), told⟩ : Scene κ τ ω).perform
        (List.replicate count (.operation .advance)) =
      (⟨machine, some (task, work), told⟩ : Scene κ τ ω).complete := by
  -- One move makes the first request. After it the work is done as if it had been made.
  induction work generalizing machine with
  | done worker => exact ⟨1, rfl⟩
  | note activity isRemark next inductionHypothesis =>
      obtain ⟨count, completes⟩ := inductionHypothesis
        { machine with session := machine.session.note activity }
      exact ⟨count + 1, completes⟩
  | publish snapshot next inductionHypothesis =>
      obtain ⟨count, completes⟩ := inductionHypothesis
        { machine with session := machine.session.publish snapshot }
      exact ⟨count + 1, completes⟩
  | fire event next inductionHypothesis =>
      obtain ⟨count, completes⟩ := inductionHypothesis (machine.session.fire event).1
        { machine with session := (machine.session.fire event).2 }
      exact ⟨count + 1, completes⟩
  | read next inductionHypothesis =>
      obtain ⟨count, completes⟩ := inductionHypothesis machine.session machine
      exact ⟨count + 1, completes⟩
  | retain world next inductionHypothesis =>
      obtain ⟨count, completes⟩ := inductionHypothesis
        { machine with session := { machine.session with world } }
      exact ⟨count + 1, completes⟩

/-- A worker finishes its task if it goes on long enough. -/
theorem exists_perform_eq_complete (scene : Scene κ τ ω) :
    ∃ count, scene.perform (List.replicate count (.operation .advance)) = scene.complete := by
  obtain ⟨machine, hand, told⟩ := scene
  cases hand with
  | none => exact ⟨0, rfl⟩
  | some hand => exact exists_perform_eq_complete_of_work hand.2 hand.1 machine told

omit [DecidableEq κ] [StateKey κ] [DecidableEq τ] [Inspect τ] in
/-- A worker that has finished its task has nothing in hand. -/
theorem hand_complete (scene : Scene κ τ ω) : scene.complete.hand = none := by
  rw [complete]
  split <;> first | assumption | rfl

omit [DecidableEq κ] [StateKey κ] [DecidableEq τ] [Inspect τ] in
/-- While a worker finishes its task it is not told anything. -/
theorem told_complete (scene : Scene κ τ ω) : scene.complete.told = scene.told := by
  rw [complete]
  split <;> rfl

omit [DecidableEq κ] [StateKey κ] [DecidableEq τ] [Inspect τ] in
/-- While a worker finishes its task the events in the queue keep their places. -/
theorem events_complete (scene : Scene κ τ ω) :
    ∃ more, scene.complete.machine.session.queue.events =
      scene.machine.session.queue.events ++ more := by
  rw [complete]
  split
  · exact ⟨[], (List.append_nil _).symm⟩
  · rename_i work _
    obtain ⟨_, _, proceeds⟩ := work.performs_run scene.machine.session
    obtain ⟨more, _, events_eq, _⟩ := proceeds.admitted
    exact ⟨more, events_eq⟩

/-- A worker that takes up a task and finishes it without interruption handles one
command. -/
theorem complete_takeUp (machine : Machine κ τ ω) :
    machine.scene.takeUp.complete =
      ⟨machine.advance, none, machine.session.phase == .stopped⟩ := by
  unfold Machine.scene takeUp Machine.advance
  simp only [beq_iff_eq]
  cases isWorker : machine.worker with
  | none => rfl
  | some worker =>
      by_cases stopped : machine.session.phase = .stopped
      · simp only [if_pos stopped, complete, Work.run_shutdown]
        rfl
      · simp only [if_neg stopped]
        cases machine.session.queue.pop? with
        | none => rfl
        | some taken =>
            obtain ⟨command, queue⟩ := taken
            cases command with
            | event event =>
                simp only [complete, Work.run_process]
                rfl
            | marker ticket => simp only [complete]

omit [DecidableEq κ] [StateKey κ] [DecidableEq τ] [Inspect τ] in
/-- A worker that finishes its task does not stop its machine. -/
theorem phase_complete (scene : Scene κ τ ω) :
    scene.complete.machine.session.phase = scene.machine.session.phase := by
  rw [complete]
  split
  · rfl
  · rename_i work _
    exact work.phase_run scene.machine.session

omit [DecidableEq κ] [StateKey κ] [DecidableEq τ] [Inspect τ] in
/-- A worker that opens without interruption begins. -/
theorem complete_launched
    {machine : Machine κ τ ω}
    (created : machine.session.phase = .created)
    {number : UInt64}
    {opening : Work κ τ ω (Worker κ)}
    {first : Session κ τ ω → Worker κ × Session κ τ ω}
    (run_opening : ∀ session, opening.run session = first session) :
    (launched machine number opening).complete =
      (machine.launch true number first).2.scene := by
  have running : (launched machine number opening).complete.machine.session.phase = .running :=
    phase_complete _
  have complete_eq : (launched machine number opening).complete =
      ⟨(machine.launch true number first).2, none, false⟩ := by
    rw [Machine.launch_of_created created, launched, complete]
    simp only [Work.thenPublish, Work.run_bind, run_opening, Work.run_publish, Work.run_done]
    rfl
  rw [complete_eq] at running ⊢
  rw [Machine.scene, running]
  rfl

omit [DecidableEq τ] [Inspect τ] in
/-- A machine that is set running begins if its worker is not interrupted. -/
theorem exists_begin_complete
    {machine begun : Machine κ τ ω}
    (created : machine.session.phase = .created)
    {beginning : Beginning κ}
    (accepted : machine.begin beginning = (.ok (), begun)) :
    ∃ first, begin machine beginning = .ok first ∧ first.complete = begun.scene := by
  have begun_eq : begun = (machine.begin beginning).2 := by rw [accepted]
  cases beginning with
  | start =>
      refine ⟨_, rfl, ?_⟩
      rw [begun_eq]
      exact complete_launched created (Work.run_enterInitial machine.definition _)
  | restore checkpoint =>
      obtain ⟨configuration, restored⟩ :=
        (Machine.startFrom_accepts_iff created).mp (congrArg Prod.fst accepted)
      rw [begun_eq, Machine.begin, Machine.startFrom_eq, restored]
      refine ⟨_, by rw [begin, restored], ?_⟩
      exact complete_launched ((machine.phase_comparingName checkpoint).trans created)
        fun _ => rfl

/-- Other operations than a request of the worker happen to the machine as they are. -/
theorem apply_of_ne_advance
    (scene : Scene κ τ ω)
    {operation : Operation κ τ ω}
    (byCaller : operation ≠ .advance) :
    scene.apply (.operation operation) =
      { scene with machine := scene.machine.apply operation } := by
  cases operation with
  | advance => contradiction
  | start _ => rfl
  | startFrom _ _ => rfl
  | fire _ => rfl
  | settle => rfl
  | requestStop => rfl
  | deposit => rfl
  | change _ => rfl
  | pass _ => rfl

/-- What happens to a machine whose worker is not interrupted can happen in the course of
time. -/
theorem exists_perform_eq (machine : Machine κ τ ω) (operations : List (Operation κ τ ω)) :
    ∃ moves, machine.scene.perform moves = (machine.perform operations).scene := by
  induction operations generalizing machine with
  | nil => exact ⟨[], rfl⟩
  | cons operation operations inductionHypothesis =>
      -- After every operation the worker is told if the machine has been stopped.
      obtain ⟨before, applied⟩ : ∃ moves, machine.scene.perform moves =
          ⟨machine.apply operation, none, machine.session.phase == .stopped⟩ := by
        by_cases byWorker : operation = .advance
        · obtain ⟨count, completes⟩ := exists_perform_eq_complete machine.scene.takeUp
          subst byWorker
          exact ⟨.operation .advance :: List.replicate count (.operation .advance),
            completes.trans (complete_takeUp machine)⟩
        · exact ⟨[.operation operation], machine.scene.apply_of_ne_advance byWorker⟩
      have told_eq : (machine.session.phase == .stopped ||
          (machine.apply operation).session.phase == .stopped) =
            ((machine.apply operation).session.phase == .stopped) := by
        rw [Bool.or_eq_right_iff_imp, beq_iff_eq, beq_iff_eq]
        exact fun stopped => Machine.phase_apply_of_stopped stopped operation
      obtain ⟨moves, performs⟩ := inductionHypothesis (machine.apply operation)
      refine ⟨before ++ .tell :: moves, ?_⟩
      rw [perform_append, applied, perform_cons, apply, told_eq]
      exact performs

end Scene

/-- A machine that has been set running and everything that happens afterwards. -/
structure Course
    [DecidableEq κ]
    [StateKey κ]
    [DecidableEq τ]
    [Inspect τ]
    (definition : Definition κ τ ω) where
  /-- The time of the beginning. -/
  clock : Timestamp
  /-- The state of the client at the beginning. -/
  world : ω
  /-- How the machine begins. -/
  beginning : Beginning κ
  /-- The scene in which the worker has not yet made a request. -/
  first : Scene κ τ ω
  /-- The machine accepts the beginning. -/
  accepted : Scene.begin (Machine.new definition clock world) beginning = .ok first
  /-- What happens afterwards. -/
  moves : List (Move κ τ ω)

namespace Course

variable
  [DecidableEq κ]
  [StateKey κ]
  [DecidableEq τ]
  [Inspect τ]
  {definition : Definition κ τ ω}

/-- The scene at the end of a course. -/
def scene (course : Course definition) : Scene κ τ ω :=
  course.first.perform course.moves

/-- The course of a machine that starts. -/
def ofStart
    (definition : Definition κ τ ω)
    (clock : Timestamp)
    (world : ω)
    (moves : List (Move κ τ ω)) : Course definition where
  clock
  world
  beginning := .start
  first :=
    let machine := Machine.new definition clock world
    Scene.launched machine 0 (Work.enterInitial definition machine.freshWorker)
  accepted := rfl
  moves

/-- The course of a machine that is restored from a checkpoint. -/
def ofRestored
    (clock : Timestamp)
    (world : ω)
    {checkpoint : Checkpoint κ}
    {configuration : Configuration}
    (restored : Machine.configurationOf definition.graph checkpoint = .ok configuration)
    (moves : List (Move κ τ ω)) : Course definition where
  clock
  world
  beginning := .restore checkpoint
  first :=
    Scene.launched ((Machine.new definition clock world).comparingName checkpoint)
      checkpoint.metadata.count
      (.note _ .restored (.done ⟨configuration, checkpoint.history, checkpoint.metadata⟩))
  accepted := by
    have restoredAnew : Machine.configurationOf
        (Machine.new definition clock world).definition.graph checkpoint = .ok configuration :=
      restored
    rw [Scene.begin, restoredAnew]
  moves

end Course

/-- Every run is the course of a machine whose worker is not interrupted. -/
theorem Run.exists_course
    [DecidableEq κ]
    [StateKey κ]
    [DecidableEq τ]
    [Inspect τ]
    {definition : Definition κ τ ω}
    (run : Run definition) :
    ∃ course : Course definition, course.beginning = run.beginning ∧
      course.scene = run.machine.scene := by
  obtain ⟨first, accepted, completes⟩ := Scene.exists_begin_complete rfl run.accepted
  obtain ⟨opening, opens⟩ := first.exists_perform_eq_complete
  obtain ⟨moves, performs⟩ := Scene.exists_perform_eq run.begun run.operations
  refine ⟨⟨run.clock, run.world, run.beginning, first, accepted,
    List.replicate opening (.operation .advance) ++ moves⟩, rfl, ?_⟩
  rw [Course.scene, Scene.perform_append, opens, completes]
  exact performs

end Statechart
