import Statechart.Proofs.Machine.Response
import Statechart.Proofs.Machine.Run
import Statechart.Proofs.Machine.Worker

/-!
# The service of a machine

Between its beginning and a request to stop, a machine responds to the accepted events one
after the other, whenever callers and worker get their turns. A machine that rests has
responded to all of them. A running machine with steady callbacks never does anything else.
-/

namespace Statechart

variable {κ τ ω : Type} [DecidableEq κ] [StateKey κ] [DecidableEq τ] [Inspect τ]

namespace Machine

/-- A running machine has responded to accepted events from a first position on. The
opening is what could be seen of its beginning. -/
structure Serves
    (definition : Definition κ τ ω)
    (first : Worker κ)
    (opening : List (Activity κ τ))
    (machine : Machine κ τ ω) : Prop where
  /-- The definition does not change. -/
  definition_eq : machine.definition = definition
  /-- The machine runs. -/
  running : machine.session.phase = .running
  /-- The accepted events are numbered behind those counted at first. -/
  numbered : machine.session.IsNumbered first.metadata.count
  /-- The worker has responded to the accepted events that are not in the queue. -/
  responds : ∃ handled worker trace,
    machine.worker = some worker ∧
      Worker.Responds definition first handled worker trace ∧
      machine.session.trace = opening ++ trace ∧
      machine.session.accepted = handled ++ machine.session.queue.events

variable
  {definition : Definition κ τ ω}
  {first : Worker κ}
  {opening : List (Activity κ τ)}
  {machine after : Machine κ τ ω}

omit [DecidableEq κ] [StateKey κ] [DecidableEq τ] [Inspect τ] in
/-- Comparing names cannot be seen in the trace. -/
theorem performs_comparingName (machine : Machine κ τ ω) (checkpoint : Checkpoint κ) :
    machine.session.Performs [] (machine.comparingName checkpoint).session := by
  rcases machine.comparingName_cases checkpoint with same | noted
  · rw [same]
    exact Session.Performs.refl _
  · rw [noted]
    exact machine.session.performs_note
      (rfl : (Activity.renamed checkpoint.machine checkpoint.id : Activity κ τ).accepted? = none)

/-- What a caller has stopped stays stopped. -/
theorem phase_apply_of_stopped
    (stopped : machine.session.phase = .stopped)
    (operation : Operation κ τ ω) :
    (machine.apply operation).session.phase = .stopped := by
  have begun : machine.session.phase ≠ .created := by simp [stopped]
  cases operation with
  | start hasRuntime =>
      rw [apply, start, launch_of_begun begun]
      exact stopped
  | startFrom checkpoint hasRuntime =>
      rw [apply, startFrom_of_begun begun, phase_comparingName]
      exact stopped
  | fire event => simp [apply, fire, Session.fire, stopped]
  | settle => simp [apply, settle, stopped]
  | requestStop => simp [apply, requestStop, stopped]
  | advance =>
      rw [apply, advance]
      split
      · exact stopped
      · rename_i worker _
        rw [if_pos stopped]
        unfold finish
        extract_lets queue count kept emptied discarded
        have discarded_phase : discarded.phase = .stopped := by
          simp only [discarded]
          split
          · exact stopped
          · exact stopped
        obtain ⟨_, passes⟩ := Worker.leaveAll_passes machine.definition
          (Plan.shutdown machine.definition.graph worker.configuration) worker discarded
        exact passes.phase_eq.trans discarded_phase
  | deposit => exact stopped
  | change world => exact stopped
  | pass clock => exact stopped

/-- What a caller has stopped stays stopped, whatever happens. -/
theorem phase_perform_of_stopped
    (stopped : machine.session.phase = .stopped)
    (operations : List (Operation κ τ ω)) :
    (machine.perform operations).session.phase = .stopped := by
  induction operations generalizing machine with
  | nil => exact stopped
  | cons operation operations inductionHypothesis =>
      exact inductionHypothesis (phase_apply_of_stopped stopped operation)

/-- The worker processes the oldest event. -/
theorem advance_of_event
    {worker : Worker κ}
    (isWorker : machine.worker = some worker)
    (running : machine.session.phase = .running)
    {event : Event τ}
    {queue : Queue τ}
    (popped : machine.session.queue.pop? = some (.event event, queue)) :
    machine.advance =
      { machine with
        worker := some
          (worker.process machine.definition event { machine.session with queue }).1
        session :=
          (worker.process machine.definition event { machine.session with queue }).2 } := by
  have goesOn : machine.session.phase ≠ .stopped := by simp [running]
  simp only [advance, isWorker, if_neg goesOn, popped]

namespace Serves

/-- What neither queues nor handles an event does not matter. -/
theorem of_eq
    (serves : machine.Serves definition first opening)
    (definition_eq : after.definition = machine.definition)
    (worker_eq : after.worker = machine.worker)
    (phase_eq : after.session.phase = machine.session.phase)
    (number_eq : after.session.number = machine.session.number)
    (events_eq : after.session.queue.events = machine.session.queue.events)
    (accepted_eq : after.session.accepted = machine.session.accepted)
    (trace_eq : after.session.trace = machine.session.trace) :
    after.Serves definition first opening where
  definition_eq := definition_eq.trans serves.definition_eq
  running := phase_eq.trans serves.running
  numbered := serves.numbered.of_eq number_eq accepted_eq
  responds := by
    rw [worker_eq, events_eq, accepted_eq, trace_eq]
    exact serves.responds

/-- What performs nothing does not matter. -/
theorem of_performs
    (serves : machine.Serves definition first opening)
    (definition_eq : after.definition = machine.definition)
    (worker_eq : after.worker = machine.worker)
    (performs : machine.session.Performs [] after.session) :
    after.Serves definition first opening :=
  serves.of_eq definition_eq worker_eq performs.phase_eq performs.number_eq
    (congrArg Queue.events performs.queue_eq) performs.accepted_eq
    (performs.trace_eq.trans (List.append_nil _))

/-- An event that is fired is accepted and waits, or nothing happens. -/
theorem fire
    (serves : machine.Serves definition first opening)
    (event : Event τ) :
    (machine.fire event).2.Serves definition first opening := by
  rcases Session.fire_cases serves.running event with
    ⟨queue, pushed, fired⟩ | ⟨_, fired⟩
  · -- The event is last among the accepted ones and last in the queue.
    obtain ⟨handled, worker, trace, isWorker, responds, trace_eq, accepted_eq⟩ :=
      serves.responds
    have accepts := Session.accepted_note
      { machine.session with queue, number := machine.session.number + 1 }
      (.accepted (event.numbered (machine.session.number + 1)))
    have shows := Session.trace_note
      { machine.session with queue, number := machine.session.number + 1 }
      (.accepted (event.numbered (machine.session.number + 1)))
    rw [Machine.fire, fired]
    refine ⟨serves.definition_eq, serves.running,
      serves.numbered.of_accepted rfl rfl accepts,
      handled, worker, trace, isWorker, responds, ?_, ?_⟩
    · rw [shows]
      exact (List.append_nil _).trans trace_eq
    · rw [accepts]
      change machine.session.accepted ++ _ = handled ++ queue.events
      rw [Queue.events_of_push?_event pushed, accepted_eq, List.append_assoc]
      rfl
  · have refused := machine.session.performs_note
      (rfl : (Activity.refused (event.numbered (machine.session.number + 1)) :
        Activity κ τ).accepted? = none)
    rw [← fired] at refused
    exact serves.of_performs rfl rfl refused

/-- The worker responds to the oldest event in the queue. -/
theorem advance
    (steady : definition.IsSteady)
    (serves : machine.Serves definition first opening) :
    machine.advance.Serves definition first opening := by
  obtain ⟨handled, worker, trace, isWorker, responds, trace_eq, accepted_eq⟩ :=
    serves.responds
  have goesOn : machine.session.phase ≠ .stopped := by simp [serves.running]
  cases popped : machine.session.queue.pop? with
  | none =>
      simpa only [Machine.advance, isWorker, if_neg goesOn, popped] using serves
  | some taken =>
      obtain ⟨command, queue⟩ := taken
      have items_eq := Queue.items_of_pop?_eq_some popped
      cases command with
      | marker ticket =>
          have events_eq : queue.events = machine.session.queue.events := by
            simp [Queue.events, items_eq]
          simp only [Machine.advance, isWorker, if_neg goesOn, popped]
          exact serves.of_eq rfl isWorker.symm rfl rfl events_eq rfl rfl
      | event event =>
          -- The event moves from the queue to those that have been handled.
          have events_eq : machine.session.queue.events = event :: queue.events := by
            simp [Queue.events, items_eq]
          rw [advance_of_event isWorker serves.running popped, serves.definition_eq]
          obtain ⟨more, performs⟩ :=
            worker.performs_process steady event { machine.session with queue }
          refine ⟨rfl, performs.phase_eq.trans serves.running,
            serves.numbered.of_eq performs.number_eq performs.accepted_eq,
            handled ++ [event], _, trace ++ more, rfl, responds.process event _ performs, ?_, ?_⟩
          · have shows : _ = machine.session.trace ++ more := performs.trace_eq
            rw [shows, trace_eq, List.append_assoc]
          · have accepts : _ = machine.session.accepted := performs.accepted_eq
            have waits : _ = queue := performs.queue_eq
            rw [accepts, waits, accepted_eq, events_eq, List.append_assoc]
            rfl

/-- Whatever happens, a machine goes on serving or stops. -/
theorem apply
    (steady : definition.IsSteady)
    (serves : machine.Serves definition first opening)
    (operation : Operation κ τ ω) :
    (machine.apply operation).Serves definition first opening ∨
      (machine.apply operation).session.phase = .stopped := by
  have begun : machine.session.phase ≠ .created := by simp [serves.running]
  cases operation with
  | start hasRuntime =>
      rw [Machine.apply, start, launch_of_begun begun]
      exact .inl serves
  | startFrom checkpoint hasRuntime =>
      refine .inl ?_
      rw [Machine.apply, startFrom_of_begun begun]
      exact serves.of_performs (definition_comparingName machine checkpoint)
        (worker_comparingName machine checkpoint) (machine.performs_comparingName checkpoint)
  | fire event => exact .inl (serves.fire event)
  | settle =>
      refine .inl ?_
      simp only [Machine.apply, settle, serves.running]
      exact serves.of_eq rfl rfl serves.running.symm rfl (Queue.events_enroll _ _) rfl rfl
  | requestStop => exact .inr (by simp [Machine.apply, requestStop, serves.running])
  | advance => exact .inl (serves.advance steady)
  | deposit => exact .inl (serves.of_eq rfl rfl rfl rfl (Queue.events_deposit _) rfl rfl)
  | change world => exact .inl (serves.of_eq rfl rfl rfl rfl rfl rfl rfl)
  | pass clock => exact .inl (serves.of_eq rfl rfl rfl rfl rfl rfl rfl)

/-- A machine that runs in the end has been serving all the time. -/
theorem perform
    (steady : definition.IsSteady)
    (serves : machine.Serves definition first opening)
    {operations : List (Operation κ τ ω)}
    (running : (machine.perform operations).session.phase = .running) :
    (machine.perform operations).Serves definition first opening := by
  induction operations generalizing machine with
  | nil => exact serves
  | cons operation operations inductionHypothesis =>
      rcases serves.apply steady operation with goesOn | stopped
      · exact inductionHypothesis goesOn running
      · have ended := phase_perform_of_stopped stopped operations
        rw [perform, List.foldl_cons] at running
        rw [perform, running] at ended
        contradiction

end Serves

/-! ## Machines at rest -/

/-- A machine serves, and its queue is empty. -/
structure Rests
    (definition : Definition κ τ ω)
    (first : Worker κ)
    (opening : List (Activity κ τ))
    (machine : Machine κ τ ω) : Prop where
  /-- It has responded to accepted events. -/
  serves : machine.Serves definition first opening
  /-- Nothing is waiting, and neither is anyone. -/
  queue_eq : machine.session.queue = Queue.empty definition.settings.queueCapacity

/-- After its worker has performed an opening and has published, a machine rests, and
nothing has been accepted yet. -/
theorem rests_of_opening
    {worker : Worker κ}
    {before entered : Session κ τ ω}
    (running : before.phase = .running)
    (unused : before.queue = Queue.empty definition.settings.queueCapacity)
    (nothingAccepted : before.accepted = [])
    (nothingSeen : before.trace = [])
    (counted : before.number = worker.metadata.count)
    (performs : before.Performs opening entered)
    (definition_eq : machine.definition = definition)
    (worker_eq : machine.worker = some worker)
    (session_eq : machine.session = worker.publish definition entered) :
    machine.Rests definition worker opening ∧ machine.session.accepted = [] := by
  have opened := performs.trans (entered.performs_publish (worker.snapshot definition))
  rw [← Worker.publish, ← session_eq, List.append_nil] at opened
  have accepted_eq : machine.session.accepted = [] := opened.accepted_eq.trans nothingAccepted
  refine ⟨⟨⟨definition_eq, opened.phase_eq.trans running,
    Session.isNumbered_of_nothing (opened.number_eq.trans counted) accepted_eq, [], worker, [],
    worker_eq, .nothing, ?_, ?_⟩, opened.queue_eq.trans unused⟩, accepted_eq⟩
  · rw [opened.trace_eq, nothingSeen, List.nil_append, List.append_nil]
  · rw [accepted_eq, opened.queue_eq, unused]
    rfl

/-- A machine that has taken over the position of a checkpoint rests there, and nothing has
been accepted yet. -/
theorem rests_restored
    {clock : Timestamp}
    {world : ω}
    {checkpoint : Checkpoint κ}
    {configuration : Configuration}
    (restored : configurationOf definition.graph checkpoint = .ok configuration)
    (accepted : (Machine.new definition clock world).begin (.restore checkpoint) =
      (.ok (), machine)) :
    machine.Rests definition ⟨configuration, checkpoint.history, checkpoint.metadata⟩ [] ∧
      machine.session.accepted = [] := by
  rw [begin, startFrom_of_created rfl restored] at accepted
  obtain ⟨_, rfl⟩ := Prod.mk.inj accepted
  let compared := (Machine.new definition clock world).comparingName checkpoint
  let begun : Session κ τ ω :=
    { compared.session with phase := .running, number := checkpoint.metadata.count }
  have performs := (Machine.new definition clock world).performs_comparingName checkpoint
  have unused : begun.queue = Queue.empty definition.settings.queueCapacity := performs.queue_eq
  have nothingAccepted : begun.accepted = [] := performs.accepted_eq
  have nothingSeen : begun.trace = [] := performs.trace_eq
  have noted : begun.Performs [] (begun.note .restored) :=
    begun.performs_note (rfl : (Activity.restored : Activity κ τ).accepted? = none)
  exact rests_of_opening rfl unused nothingAccepted nothingSeen rfl noted
    ((Machine.new definition clock world).definition_comparingName checkpoint) rfl rfl

/-- Machines that begin in the same way rest in the same position after the same opening. -/
theorem rests_begun
    (steady : definition.IsSteady)
    {clock twinClock : Timestamp}
    {world twinWorld : ω}
    {beginning : Beginning κ}
    {twin : Machine κ τ ω}
    (accepted : (Machine.new definition clock world).begin beginning = (.ok (), machine))
    (twinAccepted : (Machine.new definition twinClock twinWorld).begin beginning =
      (.ok (), twin)) :
    ∃ first firstTwin opening, first.Alike firstTwin ∧
      machine.Rests definition first opening ∧ twin.Rests definition firstTwin opening := by
  cases beginning with
  | start =>
      rw [begin, start, launch_of_created rfl] at accepted twinAccepted
      obtain ⟨_, rfl⟩ := Prod.mk.inj accepted
      obtain ⟨_, rfl⟩ := Prod.mk.inj twinAccepted
      have fresh : (Machine.new definition clock world).freshWorker.Alike
          (Machine.new definition twinClock twinWorld).freshWorker := ⟨rfl, ⟨rfl, rfl⟩, rfl⟩
      obtain ⟨entered, opening, performs, twinPerforms⟩ := fresh.enterInitial steady
        { Session.initial definition.settings clock world with phase := .running, number := 0 }
        { Session.initial definition.settings twinClock twinWorld with
          phase := .running, number := 0 }
      exact ⟨_, _, opening, entered,
        And.left (rests_of_opening rfl rfl rfl rfl rfl performs rfl rfl rfl),
        And.left (rests_of_opening rfl rfl rfl rfl rfl twinPerforms rfl rfl rfl)⟩
  | restore checkpoint =>
      obtain ⟨configuration, restored⟩ :=
        (startFrom_accepts_iff rfl).mp (congrArg Prod.fst accepted)
      exact ⟨_, _, [], .refl _, (rests_restored restored accepted).1,
        (rests_restored restored twinAccepted).1⟩

/-- Every event is fired and handled before the next one. -/
def oneByOne (events : List (Event τ)) : List (Operation κ τ ω) :=
  events.flatMap fun event => [.fire event, .advance]

/-- A machine at rest handles an event that is fired and rests again. -/
theorem Rests.handle
    (steady : definition.IsSteady)
    (places : definition.settings.queueCapacity ≠ some 0)
    (rests : machine.Rests definition first opening)
    (event : Event τ) :
    (machine.fire event).2.advance.Rests definition first opening ∧
      (machine.fire event).2.advance.session.accepted.map Event.content =
        machine.session.accepted.map Event.content ++ [event.content] := by
  obtain ⟨handled, worker, trace, isWorker, _⟩ := rests.serves.responds
  have goesOn : machine.session.phase ≠ .stopped := by simp [rests.serves.running]
  have roomy : machine.session.queue.isFull = false := by
    rw [rests.queue_eq, Queue.isFull, Queue.empty]
    cases bounded : definition.settings.queueCapacity with
    | none => rfl
    | some capacity =>
        have positive : capacity ≠ 0 := fun zero => places (by rw [bounded, zero])
        simpa [Queue.used] using positive
  rcases Session.fire_cases rests.serves.running event with
    ⟨queue, pushed, fired⟩ | ⟨full, _⟩
  · have serves := rests.serves.fire event
    have keepsWorker : (machine.fire event).2.worker = some worker := isWorker
    have fills : (machine.fire event).2.session.queue = queue := by
      rw [Machine.fire, fired]
      rfl
    have accepts : (machine.fire event).2.session.accepted = machine.session.accepted ++
        [event.numbered (machine.session.number + 1)] := by
      rw [Machine.fire, fired]
      exact Session.accepted_note _ _
    generalize (machine.fire event).2 = fed at serves keepsWorker fills accepts ⊢
    have popped : fed.session.queue.pop? =
        some (.event (event.numbered (machine.session.number + 1)),
          Queue.empty definition.settings.queueCapacity) := by
      rw [fills]
      rw [rests.queue_eq] at roomy pushed
      rw [Queue.push?, roomy] at pushed
      cases pushed
      rfl
    have advanced := serves.advance steady
    rw [advance_of_event keepsWorker serves.running popped, serves.definition_eq]
      at advanced ⊢
    obtain ⟨more, performs⟩ := worker.performs_process steady
      (event.numbered (machine.session.number + 1))
      { fed.session with queue := Queue.empty definition.settings.queueCapacity }
    have keepsAccepted : _ = fed.session.accepted := performs.accepted_eq
    refine ⟨⟨advanced, performs.queue_eq⟩, ?_⟩
    rw [keepsAccepted, accepts, List.map_append]
    rfl
  · rw [roomy] at full
    contradiction

/-- A machine at rest handles events that are fired one by one. -/
theorem Rests.handleAll
    (steady : definition.IsSteady)
    (places : definition.settings.queueCapacity ≠ some 0)
    (rests : machine.Rests definition first opening)
    (events : List (Event τ)) :
    (machine.perform (oneByOne events)).Rests definition first opening ∧
      (machine.perform (oneByOne events)).session.accepted.map Event.content =
        machine.session.accepted.map Event.content ++ events.map Event.content := by
  induction events generalizing machine with
  | nil => exact ⟨rests, (List.append_nil _).symm⟩
  | cons event events inductionHypothesis =>
      obtain ⟨handled, accepts⟩ := rests.handle steady places event
      obtain ⟨handledAll, acceptsAll⟩ := inductionHypothesis handled
      refine ⟨handledAll, ?_⟩
      rw [accepts, List.append_assoc] at acceptsAll
      exact acceptsAll

end Machine
end Statechart
