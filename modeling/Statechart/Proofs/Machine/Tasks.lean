import Statechart.Proofs.Machine.Work

/-!
# The tasks of a worker

A worker enters or restores its first configuration, processes events and leaves everything
at the end. Each of these tasks is work at its session. Carried out without interruption
the work comes to what the worker does when it has its session for itself.
-/

namespace Statechart

variable {κ τ ω α : Type}

namespace Work

/-! ## Callbacks and observers -/

/-- The requests of a program. -/
def ofProgram : Program κ τ α → Work κ τ ω α
  | .done result => .done result
  | .fire event next => .fire event fun answer => ofProgram (next answer)
  | .look next =>
      .read fun session => .note _ (.shown session.view) (ofProgram (next session.view))
  | .log entry next => .note _ (.wrote entry) (ofProgram next)

@[simp] theorem run_ofProgram (program : Program κ τ α) (session : Session κ τ ω) :
    (ofProgram program).run session = program.run session := by
  induction program generalizing session with
  | done result => rfl
  | fire event next inductionHypothesis => exact inductionHypothesis _ _
  | look next inductionHypothesis => exact inductionHypothesis _ _
  | log entry next inductionHypothesis => exact inductionHypothesis _

/-- Runs a callback with the state of its client. -/
def call (callback : Callback κ τ ω α) : Work κ τ ω α :=
  .read fun session =>
    (ofProgram (callback session.world)).bind fun (result, world) =>
      .retain world (.done result)

@[simp] theorem run_call (callback : Callback κ τ ω α) (session : Session κ τ ω) :
    (call callback).run session = session.call callback := by
  simp only [call, run_read, run_bind, run_ofProgram, Session.call]
  rfl

/-- Notifies observers in order, from the one with the given number on. -/
def notifyFrom (notification : Notification κ τ) :
    Nat → List (Observer κ τ ω) → Work κ τ ω Unit
  | _, [] => .done ()
  | number, observer :: observers =>
      .note _ (.notified number notification)
        ((call (observer notification)).bind fun outcome =>
          match outcome with
          | .returned _ => notifyFrom notification (number + 1) observers
          | .panicked panic =>
              .note _ (.observerPanicked number notification.kind panic.text)
                (notifyFrom notification (number + 1) observers))

theorem run_notifyFrom
    (notification : Notification κ τ)
    (number : Nat)
    (observers : List (Observer κ τ ω))
    (session : Session κ τ ω) :
    (notifyFrom notification number observers).run session =
      ((), Session.notifyFrom notification number observers session) := by
  induction observers generalizing number session with
  | nil => rfl
  | cons observer observers inductionHypothesis =>
      rw [notifyFrom, run_note, run_bind, run_call, Session.notifyFrom]
      rcases (session.note (.notified number notification)).call (observer notification) with
        ⟨outcome, after⟩
      cases outcome with
      | returned _ => exact inductionHypothesis _ _
      | panicked panic => exact inductionHypothesis _ _

/-- Notifies all observers in order. -/
def notify
    (observers : List (Observer κ τ ω))
    (notification : Notification κ τ) : Work κ τ ω Unit :=
  notifyFrom notification 0 observers

@[simp] theorem run_notify
    (observers : List (Observer κ τ ω))
    (notification : Notification κ τ)
    (session : Session κ τ ω) :
    (notify observers notification).run session =
      ((), session.notify observers notification) :=
  run_notifyFrom notification 0 observers session

/-- Gives notifications one after the other. -/
def notifyAll (observers : List (Observer κ τ ω)) :
    List (Notification κ τ) → Work κ τ ω Unit
  | [] => .done ()
  | notification :: notifications =>
      (notify observers notification).bind fun _ => notifyAll observers notifications

theorem run_notifyAll
    (observers : List (Observer κ τ ω))
    (notifications : List (Notification κ τ))
    (session : Session κ τ ω) :
    (notifyAll observers notifications).run session =
      ((), notifications.foldl
        (fun session notification => session.notify observers notification) session) := by
  induction notifications generalizing session with
  | nil => rfl
  | cons notification notifications inductionHypothesis =>
      rw [notifyAll, run_bind, run_notify, inductionHypothesis, List.foldl_cons]

/-! ## Selecting and carrying out a transition -/

section Transitions

variable [StateKey κ] [Inspect τ]

/-- Asks the guard of an entry about an event. -/
def consult
    (entry : Entry κ τ ω)
    (event : Event τ) : Work κ τ ω (Except GuardFault Bool) :=
  match entry.transition.guard with
  | none => .done (.ok true)
  | some guard =>
      (call (guard.evaluate event.payload)).bind fun verdict =>
        .note _ (.asked entry.source verdict) (.done verdict)

omit [StateKey κ] [Inspect τ] in
@[simp] theorem run_consult
    (entry : Entry κ τ ω)
    (event : Event τ)
    (session : Session κ τ ω) :
    (consult entry event).run session = Definition.consult session entry event := by
  rw [consult, Definition.consult]
  cases entry.transition.guard with
  | none => rfl
  | some guard => simp only [run_bind, run_call, run_note, run_done]

/-- Looks for the first entry that is allowed. -/
def choose
    (definition : Definition κ τ ω)
    (event : Event τ) :
    List (Entry κ τ ω) → Work κ τ ω (Option (Entry κ τ ω) × List StepError)
  | [] => .done (none, [])
  | entry :: entries =>
      (consult entry event).bind fun verdict =>
        match verdict with
        | .ok true =>
            .note _ (.selected entry.transition.describe) (.done (some entry, []))
        | .ok false => choose definition event entries
        | .error fault =>
            (choose definition event entries).bind fun (chosen, faults) =>
              let state := definition.graph.nameOf entry.source
              .done (chosen, .ofGuardFault state (inspect event.trigger) fault :: faults)

theorem run_choose
    (definition : Definition κ τ ω)
    (event : Event τ)
    (entries : List (Entry κ τ ω))
    (session : Session κ τ ω) :
    (choose definition event entries).run session =
      (((definition.choose event entries session).1,
          (definition.choose event entries session).2.1),
        (definition.choose event entries session).2.2) := by
  induction entries generalizing session with
  | nil => rfl
  | cons entry entries inductionHypothesis =>
      rw [choose, run_bind, run_consult, Definition.choose]
      rcases Definition.consult session entry event with ⟨verdict, after⟩
      cases verdict with
      | ok allowed =>
          cases allowed with
          | true => rfl
          | false => exact inductionHypothesis after
      | error fault =>
          simp only [run_bind, inductionHypothesis, run_done]

/-- Runs a state action that may be missing. -/
def runStateAction
    (action : Option (StateAction κ τ ω)) : Work κ τ ω (Except Failure Unit) :=
  match action with
  | none => .done (.ok ())
  | some action => call action.invoke

omit [StateKey κ] [Inspect τ] in
@[simp] theorem run_runStateAction
    (action : Option (StateAction κ τ ω))
    (session : Session κ τ ω) :
    (runStateAction action).run session = Definition.runStateAction session action := by
  cases action with
  | none => rfl
  | some action => exact run_call _ _

variable [DecidableEq κ]

/-- Runs what belongs to a step of a transition. -/
def attempt
    (definition : Definition κ τ ω)
    (source : Nat)
    (actions : List (Action κ τ ω))
    (event : Event τ) : Step → Work κ τ ω (Except StepError Unit)
  | .exit state =>
      (runStateAction (definition.exitAction? state)).bind fun result =>
        .done (result.mapError (.exitFailed (definition.graph.nameOf state)))
  | .act position =>
      match actions[position]? with
      | none => .done (.ok ())
      | some action =>
          (call (action.invoke event.payload)).bind fun result =>
            .done (result.mapError
              (.actionFailed (definition.graph.nameOf source) (inspect event.trigger)))
  | .enter state =>
      (runStateAction (definition.entryAction? state)).bind fun result =>
        .done (result.mapError (.entryFailed (definition.graph.nameOf state)))

@[simp] theorem run_attempt
    (definition : Definition κ τ ω)
    (source : Nat)
    (actions : List (Action κ τ ω))
    (event : Event τ)
    (step : Step)
    (session : Session κ τ ω) :
    (attempt definition source actions event step).run session =
      definition.attempt source actions event session step := by
  cases step with
  | exit state => simp only [attempt, run_bind, run_runStateAction, run_done, Definition.attempt]
  | act position =>
      simp only [attempt, Definition.attempt]
      cases actions[position]? with
      | none => rfl
      | some action => simp only [run_bind, run_call, run_done]
  | enter state => simp only [attempt, run_bind, run_runStateAction, run_done, Definition.attempt]

/-- Takes steps one by one up to the first failure. -/
def takeSteps (attempt : Step → Work κ τ ω (Except StepError Unit)) :
    List Step → Configuration → Work κ τ ω (Option StepError × Configuration)
  | [], configuration => .done (none, configuration)
  | step :: steps, configuration =>
      (attempt step).bind fun result =>
        match result with
        | .error error => .note _ (.failed step error) (.done (some error, configuration))
        | .ok () =>
            .note _ (.completed step) (takeSteps attempt steps (step.apply configuration))

omit [StateKey κ] [Inspect τ] [DecidableEq κ] in
theorem run_takeSteps
    {attempt : Step → Work κ τ ω (Except StepError Unit)}
    {attemptIn : Session κ τ ω → Step → Except StepError Unit × Session κ τ ω}
    (run_attempt : ∀ step session, (attempt step).run session = attemptIn session step)
    (steps : List Step)
    (configuration : Configuration)
    (session : Session κ τ ω) :
    (takeSteps attempt steps configuration).run session =
      (((Statechart.takeSteps attemptIn steps configuration session).failure,
          (Statechart.takeSteps attemptIn steps configuration session).configuration),
        (Statechart.takeSteps attemptIn steps configuration session).session) := by
  induction steps generalizing configuration session with
  | nil => rfl
  | cons step steps inductionHypothesis =>
      rw [takeSteps, run_bind, run_attempt, Statechart.takeSteps]
      rcases attemptIn session step with ⟨result, after⟩
      cases result with
      | error error => rfl
      | ok _ => exact inductionHypothesis _ _

/-- Carries out a selected transition. -/
def execute
    (definition : Definition κ τ ω)
    (entry : Entry κ τ ω)
    (event : Event τ)
    (configuration : Configuration) : Work κ τ ω (Option StepError × Configuration) :=
  let plan := definition.planOf? configuration entry
  let steps := takeSteps (attempt definition entry.source entry.transition.actions event)
    (Definition.stepsOf entry plan) configuration
  match plan with
  | none => steps
  | some plan =>
      .note _ (.planned (definition.graph.keys plan.exits) (definition.graph.keys plan.entries))
        steps

theorem run_execute
    (definition : Definition κ τ ω)
    (entry : Entry κ τ ω)
    (event : Event τ)
    (configuration : Configuration)
    (session : Session κ τ ω) :
    (execute definition entry event configuration).run session =
      (((definition.execute entry event configuration session).failure,
          (definition.execute entry event configuration session).configuration),
        (definition.execute entry event configuration session).session) := by
  simp only [execute, Definition.execute]
  cases definition.planOf? configuration entry with
  | none => exact run_takeSteps (fun _ _ => run_attempt ..) _ _ _
  | some plan => exact run_takeSteps (fun _ _ => run_attempt ..) _ _ _

end Transitions

/-! ## The tasks -/

section Tasks

variable [DecidableEq κ] [StateKey κ] [DecidableEq τ] [Inspect τ] (definition : Definition κ τ ω)

/-- Counts an event and publishes. -/
def finishEvent (worker : Worker κ) : Work κ τ ω (Worker κ) :=
  .read fun session =>
    let metadata :=
      { worker.metadata with
        count := worker.metadata.count + 1
        updatedAt := session.clock }
    let worker := { worker with metadata }
    .publish (worker.snapshot definition) (.done worker)

omit [DecidableEq κ] [StateKey κ] [DecidableEq τ] [Inspect τ] in
@[simp] theorem run_finishEvent (worker : Worker κ) (session : Session κ τ ω) :
    (finishEvent definition worker).run session = worker.finishEvent definition session := rfl

/-- Reports every failure of an event. -/
def reportErrors (context : Context κ τ) : Work κ τ ω Unit :=
  notifyAll definition.observers (context.errors.map (.exception context))

omit [DecidableEq κ] [StateKey κ] [DecidableEq τ] [Inspect τ] in
@[simp] theorem run_reportErrors (context : Context κ τ) (session : Session κ τ ω) :
    (reportErrors definition context).run session =
      ((), Worker.reportErrors definition context session) := by
  rw [reportErrors, run_notifyAll, List.foldl_map]
  rfl

/-- Ends an event that no transition handles. -/
def decline (worker : Worker κ) (context : Context κ τ) : Work κ τ ω (Worker κ) :=
  (finishEvent definition worker).bind fun worker =>
    (reportErrors definition context).bind fun _ =>
      (notify definition.observers (.declined context)).bind fun _ => .done worker

omit [DecidableEq κ] [StateKey κ] [DecidableEq τ] [Inspect τ] in
@[simp] theorem run_decline
    (worker : Worker κ)
    (context : Context κ τ)
    (session : Session κ τ ω) :
    (decline definition worker context).run session =
      worker.decline definition context session := by
  simp only [decline, run_bind, run_finishEvent, run_reportErrors, run_notify, run_done]
  rfl

/-- Carries out the transition selected for an event and ends the event. -/
def follow
    (worker : Worker κ)
    (entry : Entry κ τ ω)
    (context : Context κ τ) : Work κ τ ω (Worker κ) :=
  let transition := entry.transition
  let target := entry.target.bind definition.graph.key?
  let context := context.select transition.source target transition.describe
  (execute definition entry context.event worker.configuration).bind
    fun (failure, configuration) =>
      let context := context.fail failure.toList
      let moved := { worker with configuration }
      let after := moved.active definition
      match failure with
      | some _ =>
          (finishEvent definition moved).bind fun worker =>
            (reportErrors definition context).bind fun _ => .done worker
      | none =>
          .read fun session =>
            let recorded :=
              { moved with
                history := moved.history.record
                  ⟨context.active, after, inspect context.event.trigger, context.event.number,
                    session.clock⟩ }
            (finishEvent definition recorded).bind fun worker =>
              (reportErrors definition context).bind fun _ =>
                (notify definition.observers (.completed context.active after context)).bind
                  fun _ => .done worker

omit [DecidableEq τ] in
@[simp] theorem run_follow
    (worker : Worker κ)
    (entry : Entry κ τ ω)
    (context : Context κ τ)
    (session : Session κ τ ω) :
    (follow definition worker entry context).run session =
      worker.follow definition entry context session := by
  simp only [follow, run_bind, run_execute, Worker.follow]
  generalize definition.execute entry _ worker.configuration session = progress
  rcases progress with ⟨failure, configuration, after⟩
  cases failure with
  | none =>
      simp only [run_read, run_bind, run_finishEvent, run_reportErrors, run_notify, run_done]
  | some error => simp only [run_bind, run_finishEvent, run_reportErrors, run_done]

/-- Processes one event that has begun to its end. -/
def process (worker : Worker κ) (event : Event τ) : Work κ τ ω (Worker κ) :=
  let leaves := worker.configuration.leaves definition.graph
  let context := Context.new event (definition.graph.keys leaves)
  (notify definition.observers (.begin context)).bind fun _ =>
    (choose definition event
      (definition.table.candidatesFrom definition.graph leaves event.trigger)).bind
      fun (chosen, faults) =>
        match chosen with
        | none => decline definition worker (context.fail faults)
        | some entry => follow definition worker entry (context.fail faults)

/-- Without interruption an event is processed as by a worker on its own. -/
theorem run_process
    (worker : Worker κ)
    (event : Event τ)
    (session : Session κ τ ω) :
    (process definition worker event).run (session.note (.began event)) =
      worker.process definition event session := by
  simp only [process, run_bind, run_notify, run_choose, Worker.process]
  generalize definition.choose event _ _ = choice
  rcases choice with ⟨chosen, faults, after⟩
  cases chosen with
  | none => exact run_decline ..
  | some entry => exact run_follow ..

/-- Runs the entry action of a state at the start, and tells of a failure. -/
def attemptEntry : Step → Work κ τ ω (Except StepError Unit)
  | .enter state =>
      (runStateAction (definition.entryAction? state)).bind fun result =>
        let name := definition.graph.nameOf state
        match result with
        | .ok () => .done (.ok ())
        | .error failure =>
            .note _ (.startFailed name failure) (.done (.error (.entryFailed name failure)))
  | _ => .done (.ok ())

/-- Enters the first configuration. -/
def enterInitial (worker : Worker κ) : Work κ τ ω (Worker κ) :=
  (takeSteps (attemptEntry definition) ((Plan.initial definition.graph).map .enter)
      worker.configuration).bind
    fun (failure, configuration) =>
      let worker := { worker with configuration }
      let active := worker.active definition
      match failure with
      | some error =>
          (notify definition.observers (.lifecycle .start active error)).bind fun _ =>
            .done worker
      | none => .note _ (.started active definition.observers.length) (.done worker)

omit [DecidableEq τ] [Inspect τ] in
/-- Without interruption the first configuration is entered as by a worker on its own. -/
@[simp] theorem run_enterInitial (worker : Worker κ) (session : Session κ τ ω) :
    (enterInitial definition worker).run session = worker.enterInitial definition session := by
  rcases entered_eq : worker.enterInitial definition session with ⟨entered, after⟩
  unfold Worker.enterInitial at entered_eq
  extract_lets attemptIn progress moved active final at entered_eq
  have run_attemptEntry (step : Step) (session : Session κ τ ω) :
      (attemptEntry definition step).run session = attemptIn session step := by
    cases step with
    | exit state => rfl
    | act position => rfl
    | enter state =>
        simp only [attemptEntry, run_bind, run_runStateAction, attemptIn]
        rcases Definition.runStateAction session (definition.entryAction? state) with
          ⟨result, after⟩
        cases result with
        | ok _ => rfl
        | error failure => rfl
  rw [enterInitial, run_bind, run_takeSteps run_attemptEntry, ← entered_eq]
  simp only [final, active, moved, progress]
  generalize Statechart.takeSteps attemptIn _ worker.configuration session = taken
  rcases taken with ⟨failure, configuration, between⟩
  cases failure with
  | none => rfl
  | some error => simp only [run_bind, run_notify, run_done]

/-- Publishes the worker after what it has done to come into being. -/
def thenPublish (work : Work κ τ ω (Worker κ)) : Work κ τ ω (Worker κ) :=
  work.bind fun worker => .publish (worker.snapshot definition) (.done worker)

/-- Leaves states one by one. -/
def leaveAll : List Nat → Worker κ → Work κ τ ω (Worker κ)
  | [], worker => .done worker
  | state :: states, worker =>
      (runStateAction (definition.exitAction? state)).bind fun result =>
        let name := definition.graph.nameOf state
        let left := { worker with configuration := worker.configuration.deactivate state }
        match result with
        | .ok () => .note _ (.completed (.exit state)) (leaveAll states left)
        | .error failure =>
            .note _ (.stopFailed name failure)
              ((notify definition.observers
                  (.lifecycle .stop (worker.active definition) (.exitFailed name failure))).bind
                fun _ => .note _ (.completed (.exit state)) (leaveAll states left))

omit [DecidableEq τ] [Inspect τ] in
@[simp] theorem run_leaveAll
    (states : List Nat)
    (worker : Worker κ)
    (session : Session κ τ ω) :
    (leaveAll definition states worker).run session =
      worker.leaveAll definition states session := by
  induction states generalizing worker session with
  | nil => rfl
  | cons state states inductionHypothesis =>
      rw [leaveAll, run_bind, run_runStateAction, Worker.leaveAll]
      rcases Definition.runStateAction session (definition.exitAction? state) with ⟨result, after⟩
      cases result with
      | ok _ => exact inductionHypothesis _ _
      | error failure =>
          simp only [run_note, run_bind, run_notify]
          exact inductionHypothesis _ _

/-- Leaves everything that is active, publishes, and notes the end. -/
def shutdown (worker : Worker κ) : Work κ τ ω (Worker κ) :=
  (thenPublish definition
    (leaveAll definition (Plan.shutdown definition.graph worker.configuration) worker)).bind
    fun worker => .note _ (.stopped worker.metadata.processed) (.done worker)

omit [DecidableEq τ] [Inspect τ] in
/-- Without interruption everything is left as by a worker on its own. -/
theorem run_shutdown (worker : Worker κ) (session : Session κ τ ω) :
    (shutdown definition worker).run session =
      ((worker.shutdown definition session).1,
        (worker.shutdown definition session).2.note
          (.stopped (worker.shutdown definition session).1.metadata.processed)) := by
  simp only [shutdown, thenPublish, run_bind, run_leaveAll, run_publish, run_done, run_note]
  rfl

end Tasks
end Work
end Statechart
