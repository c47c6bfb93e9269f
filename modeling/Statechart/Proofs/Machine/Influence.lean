import Statechart.Machine.Waiting
import Statechart.Proofs.Machine.Bystanders
import Statechart.Proofs.Machine.Life

/-!
# Machines and their observers

Two machines whose workers match in every task match in everything that happens to them while
their workers are not interrupted. Callers see the same of both machines, and both answer them
the same.
-/

namespace Statechart

variable {κ τ ω σ : Type}

/-- The workers of two definitions match in every task. -/
structure Definition.Matches
    [DecidableEq κ]
    [StateKey κ]
    [DecidableEq τ]
    [Inspect τ]
    (comparison : Comparison ω σ)
    (definition other : Definition κ τ ω) : Prop where
  graph_eq : definition.graph = other.graph
  settings_eq : definition.settings = other.settings
  /-- They enter their first configuration. -/
  opens (sight : σ) (worker : Worker κ) :
    (Work.enterInitial definition worker).Matches comparison Eq sight
      (Work.enterInitial other worker)
  /-- They process events. -/
  processes (sight : σ) (worker : Worker κ) (event : Event τ) :
    (Work.process definition worker event).Matches comparison Eq sight
      (Work.process other worker event)
  /-- They leave states. -/
  leaves (sight : σ) (states : List Nat) (worker : Worker κ) :
    (Work.leaveAll definition states worker).Matches comparison Eq sight
      (Work.leaveAll other states worker)

/-- Two machines are the same in everything that can be compared. -/
structure Machine.Matches
    [DecidableEq κ]
    [StateKey κ]
    [DecidableEq τ]
    [Inspect τ]
    (comparison : Comparison ω σ)
    (machine other : Machine κ τ ω) : Prop where
  definition : machine.definition.Matches comparison other.definition
  session : machine.session.Matches comparison other.session
  worker_eq : machine.worker = other.worker
  tickets_eq : machine.tickets = other.tickets
  answers_eq : machine.answers = other.answers

/-- Two workers are at the same task with matching work. -/
inductive Task.HandsMatch (comparison : Comparison ω σ) (sight : σ) :
    Option (Task τ × Work κ τ ω (Worker κ)) → Option (Task τ × Work κ τ ω (Worker κ)) → Prop
  /-- Neither of them has anything in hand. -/
  | idle : HandsMatch comparison sight none none
  /-- Both have. -/
  | busy
      {task : Task τ}
      {work other : Work κ τ ω (Worker κ)}
      (matching : work.Matches comparison Eq sight other) :
      HandsMatch comparison sight (some (task, work)) (some (task, other))

/-- Two scenes are the same in everything that can be compared. -/
structure Scene.Matches
    [DecidableEq κ]
    [StateKey κ]
    [DecidableEq τ]
    [Inspect τ]
    (comparison : Comparison ω σ)
    (scene other : Scene κ τ ω) : Prop where
  machine : scene.machine.Matches comparison other.machine
  hand : Task.HandsMatch comparison (comparison.seen scene.machine.session.world) scene.hand
    other.hand
  told_eq : scene.told = other.told

variable
  [DecidableEq κ]
  [StateKey κ]
  [DecidableEq τ]
  [Inspect τ]
  {comparison : Comparison ω σ}

/-! ## Definitions -/

namespace Definition

variable {definition other : Definition κ τ ω}

/-- What matches from one side matches from the other. -/
theorem Matches.swap (matching : definition.Matches comparison other) :
    other.Matches comparison.swap definition where
  graph_eq := matching.graph_eq.symm
  settings_eq := matching.settings_eq.symm
  opens sight worker := (matching.opens sight worker).symm
  processes sight worker event := (matching.processes sight worker event).symm
  leaves sight states worker := (matching.leaves sight states worker).symm

/-- Both workers show the same of themselves. -/
theorem Matches.snapshot_eq
    (matching : definition.Matches comparison other)
    (worker : Worker κ) :
    worker.snapshot definition = worker.snapshot other := by
  rw [Worker.snapshot, Worker.snapshot, Worker.active, Worker.active, matching.graph_eq]

/-- Both workers are published. -/
theorem Matches.thenPublish
    (matching : definition.Matches comparison other)
    {sight : σ}
    {work otherWork : Work κ τ ω (Worker κ)}
    (works : work.Matches comparison Eq sight otherWork) :
    (Work.thenPublish definition work).Matches comparison Eq sight
      (Work.thenPublish other otherWork) := by
  refine works.bind_eq fun _ worker => ?_
  rw [matching.snapshot_eq]
  exact .publish (.done rfl)

/-- Both workers leave everything. -/
theorem Matches.shutdown
    (matching : definition.Matches comparison other)
    (sight : σ)
    (worker : Worker κ) :
    (Work.shutdown definition worker).Matches comparison Eq sight
      (Work.shutdown other worker) := by
  rw [Work.shutdown, Work.shutdown, matching.graph_eq]
  exact (matching.thenPublish (matching.leaves _ _ _)).bind_eq fun _ _ => .note rfl (.done rfl)

/-- If its observers change without harm, a definition matches the one with the changed
observers. -/
theorem Bears.isMatch
    {seen : ω → σ}
    {changes : List (ObserverChange κ τ ω)}
    (bears : definition.Bears seen changes) :
    definition.Matches (ObserverChange.comparison seen changes)
      (definition.withChanges changes) where
  graph_eq := rfl
  settings_eq := rfl
  opens _ := Work.matches_enterInitial bears
  processes _ := Work.matches_process bears
  leaves _ := Work.matches_leaveAll bears

end Definition

/-! ## Machines -/

namespace Machine

variable {machine other : Machine κ τ ω}

namespace Matches

theorem swap (matching : machine.Matches comparison other) :
    other.Matches comparison.swap machine where
  definition := matching.definition.swap
  session := matching.session.swap
  worker_eq := matching.worker_eq.symm
  tickets_eq := matching.tickets_eq.symm
  answers_eq := matching.answers_eq.symm

/-- The sessions of both machines may go on. -/
theorem withSession
    (matching : machine.Matches comparison other)
    {session otherSession : Session κ τ ω}
    (sessions : session.Matches comparison otherSession) :
    Matches comparison { machine with session } { other with session := otherSession } :=
  { matching with session := sessions }

theorem name_eq (matching : machine.Matches comparison other) : machine.name = other.name :=
  congrArg Settings.name matching.definition.settings_eq

theorem freshWorker_eq (matching : machine.Matches comparison other) :
    machine.freshWorker = other.freshWorker := by
  rw [freshWorker, freshWorker, snapshot, snapshot, matching.session.published_eq,
    matching.session.clock_eq, matching.definition.graph_eq]

/-- Both machines note another name. -/
theorem comparingName
    (matching : machine.Matches comparison other)
    (checkpoint : Checkpoint κ) :
    (machine.comparingName checkpoint).Matches comparison (other.comparingName checkpoint) := by
  unfold Machine.comparingName
  rw [matching.name_eq]
  split
  · exact matching
  · exact matching.withSession (matching.session.note rfl)

/-- Both machines empty their queues. -/
theorem close (matching : machine.Matches comparison other) :
    machine.close.Matches comparison other.close := by
  have emptied (capacity : Option Nat) : Session.Matches comparison
      { machine.session with queue := Queue.empty capacity }
      { other.session with queue := Queue.empty capacity } :=
    { matching.session with queue_eq := rfl }
  unfold Machine.close
  rw [matching.session.queue_eq, matching.answers_eq]
  refine { matching with session := ?_, answers_eq := rfl }
  simp only
  split
  · exact emptied _
  · exact (emptied _).note rfl

omit [DecidableEq κ] [StateKey κ] [DecidableEq τ] [Inspect τ] in
/-- Whether a machine can be set running is a matter of its phase. -/
theorem launch_answer_eq
    (phase_eq : machine.session.phase = other.session.phase)
    (hasRuntime : Bool)
    (number : UInt64)
    (first otherFirst : Session κ τ ω → Worker κ × Session κ τ ω) :
    (machine.launch hasRuntime number first).1 =
      (other.launch hasRuntime number otherFirst).1 := by
  unfold launch
  rw [phase_eq]
  cases other.session.phase with
  | created => cases hasRuntime <;> rfl
  | running => rfl
  | stopped => rfl

/-- Callers are answered the same by both machines. -/
theorem reply?_eq
    (matching : machine.Matches comparison other)
    (operation : Operation κ τ ω) :
    machine.reply? operation = other.reply? operation := by
  cases operation with
  | start hasRuntime => exact congrArg some (launch_answer_eq matching.session.phase_eq ..)
  | startFrom checkpoint hasRuntime =>
      refine congrArg some ?_
      rw [startFrom_eq, startFrom_eq, matching.definition.graph_eq]
      cases configurationOf other.definition.graph checkpoint with
      | error problem => rfl
      | ok configuration =>
          exact launch_answer_eq (matching.comparingName checkpoint).session.phase_eq ..
  | fire event => exact congrArg some (matching.session.fire event).1
  | settle =>
      rw [reply?, reply?, Machine.settle, Machine.settle, matching.session.phase_eq]
      cases other.session.phase with
      | created => rfl
      | stopped => rfl
      | running => rfl
  | requestStop =>
      rw [reply?, reply?, Machine.requestStop, Machine.requestStop, matching.session.phase_eq]
      cases other.session.phase with
      | created => rfl
      | stopped => rfl
      | running => rfl
  | _ => rfl

/-- Both machines take an event or turn it down. -/
theorem fire (matching : machine.Matches comparison other) (event : Event τ) :
    (machine.fire event).2.Matches comparison (other.fire event).2 :=
  matching.withSession (matching.session.fire event).2

/-- Both machines let a caller wait. -/
theorem settle (matching : machine.Matches comparison other) :
    machine.settle.2.Matches comparison other.settle.2 := by
  unfold Machine.settle
  rw [← matching.session.phase_eq, ← matching.tickets_eq, ← matching.session.queue_eq]
  split
  · exact matching
  · exact matching
  · exact { matching with
      session := { matching.session with queue_eq := rfl }
      tickets_eq := rfl }

/-- Both machines are stopped. -/
theorem requestStop (matching : machine.Matches comparison other) :
    machine.requestStop.2.Matches comparison other.requestStop.2 := by
  unfold Machine.requestStop
  rw [← matching.session.phase_eq]
  split
  · exact matching
  · exact matching
  · exact { matching with session := { matching.session with phase_eq := rfl } }

/-- Both machines are set running if they can be, with what their workers make of it. -/
theorem launch
    (matching : machine.Matches comparison other)
    (hasRuntime : Bool)
    (number : UInt64)
    {opening otherOpening : Work κ τ ω (Worker κ)}
    (openings : ∀ sight, opening.Matches comparison Eq sight otherOpening) :
    (machine.launch hasRuntime number opening.run).2.Matches comparison
      (other.launch hasRuntime number otherOpening.run).2 := by
  unfold Machine.launch
  rw [← matching.session.phase_eq]
  split
  · exact matching
  · exact matching
  · split
    · have launched : Session.Matches comparison
          { machine.session with phase := .running, number }
          { other.session with phase := .running, number } :=
        { matching.session with phase_eq := rfl, number_eq := rfl }
      obtain ⟨worker_eq, sessions⟩ := (openings _).run launched rfl
      refine { matching with session := ?_, worker_eq := congrArg some worker_eq }
      simp only [Worker.publish, worker_eq, matching.definition.snapshot_eq]
      exact sessions.publish _
    · exact matching

/-- Both machines are asked to start. -/
theorem start (matching : machine.Matches comparison other) (hasRuntime : Bool) :
    (machine.start hasRuntime).2.Matches comparison (other.start hasRuntime).2 := by
  have run_eq (machine : Machine κ τ ω) :
      machine.freshWorker.enterInitial machine.definition =
        (Work.enterInitial machine.definition machine.freshWorker).run :=
    funext fun session => (Work.run_enterInitial ..).symm
  rw [Machine.start, Machine.start, run_eq, run_eq, matching.freshWorker_eq]
  exact matching.launch hasRuntime 0 fun sight => matching.definition.opens sight _

/-- Both machines are asked to start from a checkpoint. -/
theorem startFrom
    (matching : machine.Matches comparison other)
    (checkpoint : Checkpoint κ)
    (hasRuntime : Bool) :
    (machine.startFrom checkpoint hasRuntime).2.Matches comparison
      (other.startFrom checkpoint hasRuntime).2 := by
  rw [startFrom_eq, startFrom_eq, matching.definition.graph_eq]
  cases configurationOf other.definition.graph checkpoint with
  | error problem => exact matching.comparingName checkpoint
  | ok configuration =>
      let worker : Worker κ := ⟨configuration, checkpoint.history, checkpoint.metadata⟩
      let opening : Work κ τ ω (Worker κ) := .note _ .restored (.done worker)
      have openings (sight : σ) : opening.Matches comparison Eq sight opening :=
        .note rfl (.done rfl)
      exact (matching.comparingName checkpoint).launch hasRuntime _ openings

end Matches
end Machine

/-! ## Scenes -/

omit [DecidableEq κ] [StateKey κ] [DecidableEq τ] [Inspect τ] in
theorem Task.HandsMatch.swap
    {sight : σ}
    {hand other : Option (Task τ × Work κ τ ω (Worker κ))}
    (matching : HandsMatch comparison sight hand other) :
    HandsMatch comparison.swap sight other hand := by
  cases matching with
  | idle => exact .idle
  | busy works => exact .busy works.symm

namespace Scene

variable {scene other : Scene κ τ ω}

namespace Matches

theorem swap (matching : scene.Matches comparison other) :
    other.Matches comparison.swap scene where
  machine := matching.machine.swap
  hand := by
    have sameSight : comparison.seen scene.machine.session.world =
        comparison.swap.seen other.machine.session.world := matching.machine.session.seen_eq
    rw [← sameSight]
    exact matching.hand.swap
  told_eq := matching.told_eq.symm

theorem hand_eq_none_iff (matching : scene.Matches comparison other) :
    scene.hand = none ↔ other.hand = none := by
  have hands := matching.hand
  generalize scene.hand = hand at hands ⊢
  generalize other.hand = otherHand at hands ⊢
  cases hands with
  | idle => exact Iff.rfl
  | busy _ => exact ⟨nofun, nofun⟩

/-- Both workers take up their next task, if they have one. -/
theorem takeUp
    (matching : scene.Matches comparison other)
    (idle : scene.hand = none) :
    scene.takeUp.Matches comparison other.takeUp := by
  have otherIdle := matching.hand_eq_none_iff.mp idle
  have machines := matching.machine
  obtain ⟨⟨definition, session, worker, tickets, answers⟩, hand, told⟩ := scene
  obtain ⟨⟨otherDefinition, otherSession, otherWorker, otherTickets, otherAnswers⟩, otherHand,
    otherTold⟩ := other
  obtain rfl : worker = otherWorker := machines.worker_eq
  obtain rfl : told = otherTold := matching.told_eq
  obtain rfl : hand = none := idle
  obtain rfl : otherHand = none := otherIdle
  cases worker with
  | none => exact matching
  | some worker =>
      cases told with
      | true => exact ⟨machines.close, .busy (machines.definition.shutdown _ worker), rfl⟩
      | false =>
          simp only [Scene.takeUp, Bool.false_eq_true, if_false]
          rw [← (machines.session.queue_eq : session.queue = otherSession.queue)]
          cases session.queue.pop? with
          | none => exact matching
          | some taken =>
              obtain ⟨command, queue⟩ := taken
              have popped : Session.Matches comparison { session with queue }
                  { otherSession with queue } :=
                { machines.session with queue_eq := rfl }
              cases command with
              | event event =>
                  exact ⟨machines.withSession (popped.note rfl),
                    .busy (machines.definition.processes _ worker event), rfl⟩
              | marker ticket =>
                  exact ⟨{ machines with
                    session := popped
                    answers_eq := congrArg ((ticket, .ok ()) :: ·) machines.answers_eq },
                    .idle, rfl⟩

/-- Both workers finish their tasks without interruption. -/
theorem complete (matching : scene.Matches comparison other) :
    scene.complete.Matches comparison other.complete := by
  have machines := matching.machine
  have hands := matching.hand
  obtain ⟨machine, hand, told⟩ := scene
  obtain ⟨otherMachine, otherHand, otherTold⟩ := other
  cases hands with
  | idle => exact matching
  | @busy task _ _ works =>
      obtain ⟨worker_eq, sessions⟩ := works.run machines.session rfl
      exact ⟨{ machines with
        session := sessions
        worker_eq := congrArg task.remaining worker_eq }, .idle, matching.told_eq⟩

end Matches
end Scene

/-- Both workers handle a command. -/
theorem Machine.Matches.advance
    {machine other : Machine κ τ ω}
    (matching : machine.Matches comparison other) :
    machine.advance.Matches comparison other.advance := by
  have scenes : machine.scene.Matches comparison other.scene :=
    ⟨matching, .idle, by rw [scene, scene, matching.session.phase_eq]⟩
  have completed := (scenes.takeUp rfl).complete
  rw [Scene.complete_takeUp, Scene.complete_takeUp] at completed
  exact completed.machine

/-- Whatever happens to one machine happens to the other. -/
theorem Machine.Matches.apply
    {machine other : Machine κ τ ω}
    (matching : machine.Matches comparison other)
    (operation : Operation κ τ ω) :
    (machine.apply operation).Matches comparison (other.apply operation) := by
  cases operation with
  | start hasRuntime => exact matching.start hasRuntime
  | startFrom checkpoint hasRuntime => exact matching.startFrom checkpoint hasRuntime
  | fire event => exact matching.fire event
  | settle => exact matching.settle
  | requestStop => exact matching.requestStop
  | advance => exact matching.advance
  | deposit =>
      exact matching.withSession { matching.session with
        queue_eq := congrArg Queue.deposit matching.session.queue_eq }
  | change world => exact matching.withSession (matching.session.retain rfl)
  | pass clock => exact matching.withSession { matching.session with clock_eq := rfl }

namespace Machine

variable {machine other : Machine κ τ ω}

/-! ## Callers -/

/-- What is answered in the course of several operations. -/
def replies (machine : Machine κ τ ω) :
    List (Operation κ τ ω) → List (Option (Except MachineError Unit))
  | [] => []
  | operation :: operations =>
      machine.reply? operation :: (machine.apply operation).replies operations

/-- Two machines show the same of themselves. -/
structure LooksLike (machine other : Machine κ τ ω) : Prop where
  name_eq : machine.name = other.name
  isRunning_eq : machine.isRunning = other.isRunning
  snapshot_eq : machine.snapshot = other.snapshot
  activePath?_eq (leaf : κ) : machine.activePath? leaf = other.activePath? leaf
  checkpoint_eq (id : Uuid) : machine.checkpoint id = other.checkpoint id

/-- Two machines whose workers are not interrupted answer every call in the same way, also if
the caller waits. -/
structure AnswersLike (machine other : Machine κ τ ω) : Prop where
  reply?_eq (operation : Operation κ τ ω) : machine.reply? operation = other.reply? operation
  settled_eq : machine.awaitSettled.1 = other.awaitSettled.1
  stopped_eq : machine.stop.1 = other.stop.1
  settledAndStopped_eq :
    machine.awaitSettledAndStop.1 = other.awaitSettledAndStop.1 ∧
      machine.awaitSettledAndStop.2.1 = other.awaitSettledAndStop.2.1

namespace Matches

/-- Whatever happens to one machine in the course of time happens to the other, and callers are
answered the same. -/
theorem perform
    (matching : machine.Matches comparison other)
    (operations : List (Operation κ τ ω)) :
    machine.replies operations = other.replies operations ∧
      (machine.perform operations).Matches comparison (other.perform operations) := by
  induction operations generalizing machine other with
  | nil => exact ⟨rfl, matching⟩
  | cons operation operations inductionHypothesis =>
      obtain ⟨replies_eq, performed⟩ := inductionHypothesis (matching.apply operation)
      refine ⟨?_, performed⟩
      rw [replies, replies, matching.reply?_eq, replies_eq]

/-- Both machines show the same of themselves. -/
theorem looksLike (matching : machine.Matches comparison other) : machine.LooksLike other where
  name_eq := matching.name_eq
  isRunning_eq := by
    rw [isRunning, isRunning, Session.isRunning, Session.isRunning, matching.session.phase_eq]
  snapshot_eq := matching.session.published_eq
  activePath?_eq leaf := by
    rw [activePath?, activePath?, currentStates, currentStates, snapshot, snapshot,
      matching.session.published_eq, matching.definition.graph_eq]
  checkpoint_eq id := by
    rw [checkpoint, checkpoint, snapshot, snapshot, matching.name_eq,
      matching.session.published_eq, matching.session.clock_eq]

theorem run (matching : machine.Matches comparison other) (bound : Nat) :
    (machine.run bound).Matches comparison (other.run bound) := by
  induction bound generalizing machine other with
  | zero => exact matching
  | succ bound inductionHypothesis =>
      have isBusy_eq : machine.isBusy = other.isBusy := by
        rw [isBusy, isBusy, matching.worker_eq, matching.session.phase_eq,
          matching.session.queue_eq]
      rw [Machine.run, Machine.run, isBusy_eq]
      split
      · exact inductionHypothesis matching.advance
      · exact matching

/-- Both workers have a turn. -/
theorem turn (matching : machine.Matches comparison other) :
    machine.turn.Matches comparison other.turn :=
  (matching.run turnLength).apply .deposit

theorem answer?_eq (matching : machine.Matches comparison other) (ticket : Nat) :
    machine.answer? ticket = other.answer? ticket := by
  rw [answer?, answer?, matching.answers_eq]

theorem runUntilAnswered
    (matching : machine.Matches comparison other)
    (ticket bound : Nat) :
    (machine.runUntilAnswered ticket bound).Matches comparison
      (other.runUntilAnswered ticket bound) := by
  induction bound generalizing machine other with
  | zero => exact matching
  | succ bound inductionHypothesis =>
      simp only [Machine.runUntilAnswered, matching.turn.answer?_eq]
      split
      · exact matching.turn
      · exact inductionHypothesis matching.turn

theorem settle_answer_eq (matching : machine.Matches comparison other) :
    machine.settle.1 = other.settle.1 := by
  rw [Machine.settle, Machine.settle, matching.session.phase_eq, matching.tickets_eq]
  split <;> rfl

theorem outcomeOf_eq
    (matching : machine.Matches comparison other)
    (ticket : Except MachineError Nat) :
    machine.outcomeOf ticket = other.outcomeOf ticket := by
  cases ticket with
  | error error => rfl
  | ok ticket => rw [outcomeOf, outcomeOf, matching.answer?_eq]

theorem awaitSettled (matching : machine.Matches comparison other) :
    machine.awaitSettled.1 = other.awaitSettled.1 := by
  have settled := matching.settle
  have answer_eq := matching.settle_answer_eq
  unfold Machine.awaitSettled
  generalize machine.settle = result at settled answer_eq ⊢
  generalize other.settle = otherResult at settled answer_eq ⊢
  obtain ⟨ticket, machine⟩ := result
  obtain ⟨_, other⟩ := otherResult
  obtain rfl := answer_eq
  cases ticket with
  | error error => rfl
  | ok ticket =>
      have turns_eq : machine.turnsToAnswer = other.turnsToAnswer := by
        rw [turnsToAnswer, turnsToAnswer, settled.session.queue_eq]
      simp only [turns_eq]
      exact (settled.runUntilAnswered ticket _).outcomeOf_eq _

theorem stop (matching : machine.Matches comparison other) :
    machine.stop.1 = other.stop.1 ∧ machine.stop.2.Matches comparison other.stop.2 := by
  have stopped := matching.requestStop
  have answer_eq : machine.requestStop.1 = other.requestStop.1 :=
    Option.some.inj (matching.reply?_eq .requestStop)
  unfold Machine.stop
  generalize machine.requestStop = result at stopped answer_eq ⊢
  generalize other.requestStop = otherResult at stopped answer_eq ⊢
  obtain ⟨answer, machine⟩ := result
  obtain ⟨_, other⟩ := otherResult
  obtain rfl := answer_eq
  cases answer with
  | error error => exact ⟨rfl, stopped⟩
  | ok _ => exact ⟨rfl, stopped.advance⟩

/-- Both machines answer every call in the same way. -/
theorem answersLike (matching : machine.Matches comparison other) : machine.AnswersLike other where
  reply?_eq := matching.reply?_eq
  settled_eq := matching.awaitSettled
  stopped_eq := matching.stop.1
  settledAndStopped_eq := by
    have settled := matching.settle
    obtain ⟨stop_eq, stopped⟩ := settled.stop
    have first_eq (machine : Machine κ τ ω) : machine.awaitSettledAndStop.1 =
        machine.settle.2.stop.2.outcomeOf machine.settle.1 := rfl
    refine ⟨?_, stop_eq⟩
    rw [first_eq, first_eq, matching.settle_answer_eq]
    exact stopped.outcomeOf_eq _

end Matches

/-- Machines that are created at the same time for the same client match. -/
theorem matches_new
    {definition otherDefinition : Definition κ τ ω}
    (definitions : definition.Matches comparison otherDefinition)
    (clock : Timestamp)
    (world : ω) :
    (new definition clock world).Matches comparison (new otherDefinition clock world) where
  definition := definitions
  session := by
    rw [new, new, definitions.settings_eq]
    exact ⟨rfl, rfl, rfl, rfl, rfl, rfl, rfl⟩
  worker_eq := rfl
  tickets_eq := rfl
  answers_eq := rfl

end Machine
end Statechart
