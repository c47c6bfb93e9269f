import Statechart.Proofs.Machine.Session
import Statechart.Proofs.Machine.Trace

/-!
# Machines with steady callbacks

A callback is steady if its result never varies and it queues nothing. With steady guards
and actions, and with observers that queue nothing, what a worker makes of an event is
determined by its position and by what the event says: two workers in the same position
perform alike and end in the same position.
-/

namespace Statechart

variable {κ τ ω α : Type}

/-- The result of a callback never varies, and it queues nothing. -/
structure IsSteady (callback : Callback κ τ ω α) : Prop where
  /-- It queues nothing. -/
  quiet (world : ω) : (callback world).IsQuiet
  /-- Neither the client nor the machine has an influence on its result. -/
  constant (first second : ω) (one other : Session κ τ ω) :
    ((callback first).run one).1.1 = ((callback second).run other).1.1

/-- The outcomes of guards and actions depend on payloads only, and neither they nor
observers queue events. -/
structure Definition.IsSteady [DecidableEq κ] (definition : Definition κ τ ω) : Prop where
  /-- A guard that is asked about a payload is steady. -/
  guard {entry : Entry κ τ ω} {guard : Guard κ τ ω} (payload : Payload) :
    entry ∈ definition.table.entries → entry.transition.guard = some guard →
      Statechart.IsSteady (guard.evaluate payload)
  /-- An action that runs on a payload is steady. -/
  action {entry : Entry κ τ ω} {action : Action κ τ ω} (payload : Payload) :
    entry ∈ definition.table.entries → action ∈ entry.transition.actions →
      Statechart.IsSteady (action.invoke payload)
  /-- Entry actions are steady. -/
  entry {state : Nat} {action : StateAction κ τ ω} :
    definition.entryAction? state = some action → Statechart.IsSteady action.invoke
  /-- Exit actions are steady. -/
  exit {state : Nat} {action : StateAction κ τ ω} :
    definition.exitAction? state = some action → Statechart.IsSteady action.invoke
  /-- Observers queue nothing. -/
  observer {observer : Observer κ τ ω} (notification : Notification κ τ) (world : ω) :
    observer ∈ definition.observers → (observer notification world).IsQuiet

/-! ## Callbacks -/

namespace Session

variable (first second : Session κ τ ω)

/-- A steady callback gives the same result in all sessions. -/
theorem call_alike
    {callback : Callback κ τ ω α}
    (steady : IsSteady callback) :
    (first.call callback).1 = (second.call callback).1 ∧
      PerformAlike first second (first.call callback).2 (second.call callback).2 :=
  ⟨steady.constant _ _ _ _,
    [], performs_call steady.quiet first, performs_call steady.quiet second⟩

/-- Observers that queue nothing are notified alike. -/
theorem notifyFrom_alike
    {observers : List (Observer κ τ ω)}
    (quiet : ∀ observer ∈ observers, ∀ notification world,
      (observer notification world).IsQuiet)
    {one other : Notification κ τ}
    (sameNotification : one.anonymous = other.anonymous)
    (number : Nat) :
    PerformAlike first second (notifyFrom one number observers first)
      (notifyFrom other number observers second) := by
  induction observers generalizing number first second with
  | nil => exact PerformAlike.refl first second
  | cons observer observers inductionHypothesis =>
      have performs_observer (notification : Notification κ τ) (session : Session κ τ ω) :
          ∃ after, session.Performs [.notified number notification.anonymous] after ∧
            notifyFrom notification number (observer :: observers) session =
              notifyFrom notification (number + 1) observers after := by
        have noted := session.performs_note
          (rfl : (Activity.notified number notification : Activity κ τ).accepted? = none)
        have called := noted.trans
          (performs_call (quiet observer List.mem_cons_self notification)
            (session.note (.notified number notification)))
        rw [notifyFrom]
        split
        rename_i outcome after called_eq
        rw [called_eq] at called
        cases outcome with
        | returned _ => exact ⟨after, called, rfl⟩
        | panicked panic =>
            have told := after.performs_note
              (rfl : (Activity.observerPanicked number notification.kind panic.text :
                Activity κ τ).accepted? = none)
            exact ⟨_, called.trans told, rfl⟩
      obtain ⟨firstAfter, firstPerforms, first_eq⟩ := performs_observer one first
      obtain ⟨secondAfter, secondPerforms, second_eq⟩ := performs_observer other second
      rw [first_eq, second_eq]
      rw [sameNotification] at firstPerforms
      exact PerformAlike.trans ⟨_, firstPerforms, secondPerforms⟩
        (inductionHypothesis firstAfter secondAfter
          (fun observer member => quiet observer (List.mem_cons_of_mem _ member)) (number + 1))

end Session

namespace Definition

/-- A state action that may be missing runs alike. -/
theorem runStateAction_alike
    (first second : Session κ τ ω)
    {action : Option (StateAction κ τ ω)}
    (steadyAction : ∀ present, action = some present → Statechart.IsSteady present.invoke) :
    (runStateAction first action).1 = (runStateAction second action).1 ∧
      Session.PerformAlike first second (runStateAction first action).2
        (runStateAction second action).2 := by
  cases action with
  | none => exact ⟨rfl, Session.PerformAlike.refl first second⟩
  | some action => exact first.call_alike second (steadyAction action rfl)

variable
  [DecidableEq κ]
  {definition : Definition κ τ ω}
  (steady : definition.IsSteady)
  (first second : Session κ τ ω)

include steady

/-- The observers of a steady definition are notified alike. -/
theorem IsSteady.notify_alike
    {one other : Notification κ τ}
    (sameNotification : one.anonymous = other.anonymous) :
    Session.PerformAlike first second (first.notify definition.observers one)
      (second.notify definition.observers other) :=
  Session.notifyFrom_alike first second
    (fun _ member notification world => steady.observer notification world member)
    sameNotification 0

/-- The guard of an entry is asked alike about events with the same payload. -/
theorem IsSteady.consult_alike
    {entry : Entry κ τ ω}
    (listed : entry ∈ definition.table.entries)
    {one other : Event τ}
    (samePayload : one.payload = other.payload) :
    (consult first entry one).1 = (consult second entry other).1 ∧
      Session.PerformAlike first second (consult first entry one).2
        (consult second entry other).2 := by
  unfold consult
  cases guarded : entry.transition.guard with
  | none => exact ⟨rfl, Session.PerformAlike.refl first second⟩
  | some guard =>
      obtain ⟨result_eq, alike⟩ :=
        first.call_alike second (steady.guard other.payload listed guarded)
      simp only [samePayload, result_eq, true_and]
      exact alike.trans (.note _ _ rfl rfl rfl)

/-- The same entry is chosen for events that say the same. -/
theorem IsSteady.choose_alike
    [StateKey κ]
    [Inspect τ]
    {entries : List (Entry κ τ ω)}
    (listed : ∀ entry ∈ entries, entry ∈ definition.table.entries)
    {one other : Event τ}
    (sameContent : one.content = other.content) :
    (definition.choose one entries first).1 = (definition.choose other entries second).1 ∧
      (definition.choose one entries first).2.1 =
        (definition.choose other entries second).2.1 ∧
      Session.PerformAlike first second (definition.choose one entries first).2.2
        (definition.choose other entries second).2.2 := by
  obtain ⟨sameTrigger, samePayload⟩ := Prod.mk.inj sameContent
  induction entries generalizing first second with
  | nil => exact ⟨rfl, rfl, Session.PerformAlike.refl first second⟩
  | cons entry entries inductionHypothesis =>
      have rest := fun first second => inductionHypothesis first second fun entry member =>
        listed entry (List.mem_cons_of_mem _ member)
      obtain ⟨verdict_eq, asked⟩ :=
        steady.consult_alike first second (listed entry List.mem_cons_self) samePayload
      rw [choose, choose]
      generalize consult first entry one = firstAsked at verdict_eq asked ⊢
      generalize consult second entry other = secondAsked at verdict_eq asked ⊢
      obtain ⟨verdict, firstAfter⟩ := firstAsked
      obtain ⟨_, secondAfter⟩ := secondAsked
      cases verdict_eq
      obtain ⟨chosen_eq, faults_eq, chosen⟩ := rest firstAfter secondAfter
      cases verdict with
      | ok allowed =>
          cases allowed with
          | true => exact ⟨rfl, rfl, asked.trans (.note _ _ rfl rfl rfl)⟩
          | false => exact ⟨chosen_eq, faults_eq, asked.trans chosen⟩
      | error fault =>
          refine ⟨chosen_eq, ?_, asked.trans chosen⟩
          simp only [faults_eq, sameTrigger]

/-- What belongs to a step runs alike for events that say the same. -/
theorem IsSteady.attempt_alike
    [StateKey κ]
    [Inspect τ]
    {entry : Entry κ τ ω}
    (listed : entry ∈ definition.table.entries)
    {one other : Event τ}
    (sameContent : one.content = other.content)
    (step : Step) :
    (definition.attempt entry.source entry.transition.actions one first step).1 =
        (definition.attempt entry.source entry.transition.actions other second step).1 ∧
      Session.PerformAlike first second
        (definition.attempt entry.source entry.transition.actions one first step).2
        (definition.attempt entry.source entry.transition.actions other second step).2 := by
  obtain ⟨sameTrigger, samePayload⟩ := Prod.mk.inj sameContent
  cases step with
  | exit state =>
      obtain ⟨result_eq, alike⟩ := runStateAction_alike first second
        fun action (present : definition.exitAction? state = some action) =>
          steady.exit present
      simp only [attempt, result_eq, true_and]
      exact alike
  | act position =>
      simp only [attempt]
      cases found : entry.transition.actions[position]? with
      | none => exact ⟨rfl, Session.PerformAlike.refl first second⟩
      | some action =>
          obtain ⟨result_eq, alike⟩ := first.call_alike second
            (steady.action other.payload listed (List.mem_of_getElem? found))
          simp only [samePayload, sameTrigger, result_eq, true_and]
          exact alike
  | enter state =>
      obtain ⟨result_eq, alike⟩ := runStateAction_alike first second
        fun action (present : definition.entryAction? state = some action) =>
          steady.entry present
      simp only [attempt, result_eq, true_and]
      exact alike

end Definition

/-! ## Steps -/

/-- Steps whose attempts are alike are taken alike. -/
theorem takeSteps_alike
    {attempt retry : Session κ τ ω → Step → Except StepError Unit × Session κ τ ω}
    (attempts_alike : ∀ first second step, (attempt first step).1 = (retry second step).1 ∧
      Session.PerformAlike first second (attempt first step).2 (retry second step).2)
    (steps : List Step)
    (configuration : Configuration)
    (first second : Session κ τ ω) :
    (takeSteps attempt steps configuration first).failure =
        (takeSteps retry steps configuration second).failure ∧
      (takeSteps attempt steps configuration first).configuration =
        (takeSteps retry steps configuration second).configuration ∧
      Session.PerformAlike first second (takeSteps attempt steps configuration first).session
        (takeSteps retry steps configuration second).session := by
  induction steps generalizing configuration first second with
  | nil => exact ⟨rfl, rfl, Session.PerformAlike.refl first second⟩
  | cons step steps inductionHypothesis =>
      obtain ⟨result_eq, attempted⟩ := attempts_alike first second step
      rw [takeSteps, takeSteps]
      generalize attempt first step = firstTried at result_eq attempted ⊢
      generalize retry second step = secondTried at result_eq attempted ⊢
      obtain ⟨result, firstAfter⟩ := firstTried
      obtain ⟨_, secondAfter⟩ := secondTried
      cases result_eq
      cases result with
      | error error => exact ⟨rfl, rfl, attempted.trans (.note _ _ rfl rfl rfl)⟩
      | ok _ =>
          obtain ⟨failure_eq, configuration_eq, taken⟩ := inductionHypothesis
            (step.apply configuration) (firstAfter.note (.completed step))
            (secondAfter.note (.completed step))
          exact ⟨failure_eq, configuration_eq,
            (attempted.trans (.note _ _ rfl rfl rfl)).trans taken⟩

/-! ## Positions -/

/-- The record without its time. -/
def Record.timeless (record : Record κ) : List κ × List κ × String × UInt64 :=
  (record.before, record.after, record.trigger, record.number)

/-- Two histories differ in times only. -/
structure History.Alike (first second : History κ) : Prop where
  /-- They keep equally many records. -/
  limit_eq : first.limit = second.limit
  /-- Their records differ in times only. -/
  records_eq : first.records.map Record.timeless = second.records.map Record.timeless

theorem History.Alike.refl (history : History κ) : history.Alike history := ⟨rfl, rfl⟩

/-- Recording what differs in time only leads to what differs in times only. -/
theorem History.Alike.record
    {first second : History κ}
    (alike : first.Alike second)
    {one other : Record κ}
    (sameRecord : one.timeless = other.timeless) :
    (first.record one).Alike (second.record other) where
  limit_eq := alike.limit_eq
  records_eq := by
    have longer : (first.records ++ [one]).map Record.timeless =
        (second.records ++ [other]).map Record.timeless := by
      simp [alike.records_eq, sameRecord]
    have sameLength := congrArg List.length longer
    simp only [List.length_map] at sameLength
    rw [records_record, records_record, alike.limit_eq]
    unfold trim
    split
    · exact longer
    · rw [List.map_drop, List.map_drop, longer, sameLength]

/-- Two workers are in the same position: they differ in times only. -/
structure Worker.Alike (first second : Worker κ) : Prop where
  /-- The same states are active. -/
  configuration_eq : first.configuration = second.configuration
  /-- The histories differ in times only. -/
  history : first.history.Alike second.history
  /-- Equally many events have been processed. -/
  count_eq : first.metadata.count = second.metadata.count

theorem Worker.Alike.refl (worker : Worker κ) : worker.Alike worker :=
  ⟨rfl, .refl _, rfl⟩

/-- Moving to the same states and recording the same leads to the same position. -/
theorem Worker.Alike.record
    {worker twin : Worker κ}
    (alike : worker.Alike twin)
    (configuration : Configuration)
    {one other : Record κ}
    (sameRecord : one.timeless = other.timeless) :
    ({ worker with configuration, history := worker.history.record one } : Worker κ).Alike
      { twin with configuration, history := twin.history.record other } :=
  ⟨rfl, alike.history.record sameRecord, alike.count_eq⟩

/-! ## Events -/

namespace Definition

variable
  [DecidableEq κ]
  [StateKey κ]
  [Inspect τ]
  {definition : Definition κ τ ω}
  (steady : definition.IsSteady)
  (first second : Session κ τ ω)

include steady

/-- An entry is carried out alike for events that say the same. -/
theorem IsSteady.execute_alike
    {entry : Entry κ τ ω}
    (listed : entry ∈ definition.table.entries)
    {one other : Event τ}
    (sameContent : one.content = other.content)
    (configuration : Configuration) :
    (definition.execute entry one configuration first).failure =
        (definition.execute entry other configuration second).failure ∧
      (definition.execute entry one configuration first).configuration =
        (definition.execute entry other configuration second).configuration ∧
      Session.PerformAlike first second
        (definition.execute entry one configuration first).session
        (definition.execute entry other configuration second).session := by
  have attempts_alike := fun first second =>
    steady.attempt_alike first second listed sameContent
  unfold execute
  cases definition.planOf? configuration entry with
  | none => exact takeSteps_alike attempts_alike _ configuration first second
  | some plan =>
      obtain ⟨failure_eq, configuration_eq, taken⟩ := takeSteps_alike attempts_alike
        (stepsOf entry (some plan)) configuration _ _
      exact ⟨failure_eq, configuration_eq, Session.PerformAlike.trans
        (.note _ _ rfl rfl rfl) taken⟩

omit [StateKey κ] [Inspect τ] in
/-- Failures are reported alike. -/
theorem IsSteady.reportErrors_alike
    {one other : Context κ τ}
    (sameContext : one.anonymous = other.anonymous) :
    Session.PerformAlike first second (Worker.reportErrors definition one first)
      (Worker.reportErrors definition other second) := by
  have sameErrors : one.errors = other.errors := by
    have same := congrArg Context.errors sameContext
    exact same
  unfold Worker.reportErrors
  rw [sameErrors]
  generalize other.errors = errors
  induction errors generalizing first second with
  | nil => exact Session.PerformAlike.refl first second
  | cons error errors inductionHypothesis =>
      refine Session.PerformAlike.trans (steady.notify_alike first second ?_)
        (inductionHypothesis _ _)
      simp only [Notification.anonymous, sameContext]

end Definition

namespace Worker

variable
  [DecidableEq κ]
  [StateKey κ]
  [Inspect τ]
  {definition : Definition κ τ ω}
  (steady : definition.IsSteady)
  {worker twin : Worker κ}
  (alike : worker.Alike twin)
  (first second : Session κ τ ω)

include steady alike

omit [StateKey κ] [Inspect τ] in
/-- Ending an event and reporting its failures leads to the same position. -/
theorem Alike.finishEvent
    {one other : Context κ τ}
    (sameContext : one.anonymous = other.anonymous) :
    (worker.finishEvent definition first).1.Alike (twin.finishEvent definition second).1 ∧
      Session.PerformAlike first second
        (reportErrors definition one (worker.finishEvent definition first).2)
        (reportErrors definition other (twin.finishEvent definition second).2) := by
  have published : Session.PerformAlike first second (worker.finishEvent definition first).2
      (twin.finishEvent definition second).2 :=
    ⟨[], first.performs_publish _, second.performs_publish _⟩
  refine ⟨⟨alike.configuration_eq, alike.history, ?_⟩,
    published.trans (steady.reportErrors_alike _ _ sameContext)⟩
  exact congrArg (· + 1) alike.count_eq

omit [StateKey κ] [Inspect τ] in
/-- An event is declined alike. -/
theorem Alike.decline
    {one other : Context κ τ}
    (sameContext : one.anonymous = other.anonymous) :
    (worker.decline definition one first).1.Alike (twin.decline definition other second).1 ∧
      Session.PerformAlike first second (worker.decline definition one first).2
        (twin.decline definition other second).2 := by
  obtain ⟨finished, reported⟩ := alike.finishEvent steady first second sameContext
  refine ⟨finished, reported.trans (steady.notify_alike _ _ ?_)⟩
  simp only [Notification.anonymous, sameContext]

/-- An entry is followed alike. -/
theorem Alike.follow
    {entry : Entry κ τ ω}
    (listed : entry ∈ definition.table.entries)
    {one other : Context κ τ}
    (sameContext : one.anonymous = other.anonymous) :
    (worker.follow definition entry one first).1.Alike
        (twin.follow definition entry other second).1 ∧
      Session.PerformAlike first second (worker.follow definition entry one first).2
        (twin.follow definition entry other second).2 := by
  unfold Worker.follow
  dsimp only
  have sameSelection :
      (one.select entry.transition.source (entry.target.bind definition.graph.key?)
        entry.transition.describe).anonymous =
      (other.select entry.transition.source (entry.target.bind definition.graph.key?)
        entry.transition.describe).anonymous :=
    congrArg (fun context : Context κ τ =>
      context.select entry.transition.source (entry.target.bind definition.graph.key?)
        entry.transition.describe) sameContext
  generalize one.select entry.transition.source (entry.target.bind definition.graph.key?)
    entry.transition.describe = selected at sameSelection ⊢
  generalize other.select entry.transition.source (entry.target.bind definition.graph.key?)
    entry.transition.describe = twinSelected at sameSelection ⊢
  have sameActive : selected.active = twinSelected.active := by
    have same := congrArg Context.active sameSelection
    exact same
  have sameEvent : selected.event.anonymous = twinSelected.event.anonymous :=
    congrArg Context.event sameSelection
  obtain ⟨sameContent, sameSequence⟩ := Event.anonymous_eq_iff.mp sameEvent
  have sameTrigger : selected.event.trigger = twinSelected.event.trigger :=
    congrArg Prod.fst sameContent
  obtain ⟨failure_eq, configuration_eq, executed⟩ :=
    steady.execute_alike first second listed sameContent worker.configuration
  rw [alike.configuration_eq] at failure_eq configuration_eq executed ⊢
  generalize definition.execute entry selected.event twin.configuration first = firstDone
    at failure_eq configuration_eq executed ⊢
  generalize definition.execute entry twinSelected.event twin.configuration second = secondDone
    at failure_eq configuration_eq executed ⊢
  obtain ⟨failure, configuration, firstAfter⟩ := firstDone
  obtain ⟨_, _, secondAfter⟩ := secondDone
  cases failure_eq
  cases configuration_eq
  have sameFailure (errors : List StepError) :
      (selected.fail errors).anonymous = (twinSelected.fail errors).anonymous :=
    congrArg (Context.fail · errors) sameSelection
  cases failure with
  | some error =>
      have moved : Worker.Alike { worker with configuration } { twin with configuration } :=
        ⟨rfl, alike.history, alike.count_eq⟩
      obtain ⟨finished, reported⟩ :=
        moved.finishEvent steady firstAfter secondAfter (sameFailure _)
      exact ⟨finished, executed.trans reported⟩
  | none =>
      have sameRecord (after : List κ) :
          Record.timeless ⟨selected.active, after, inspect selected.event.trigger,
              selected.event.number, firstAfter.clock⟩ =
            Record.timeless ⟨twinSelected.active, after, inspect twinSelected.event.trigger,
              twinSelected.event.number, secondAfter.clock⟩ := by
        rw [Record.timeless, Record.timeless, sameActive, sameTrigger, sameSequence]
      have recorded := alike.record configuration
        (sameRecord (Worker.active definition { worker with configuration }))
      obtain ⟨finished, reported⟩ :=
        recorded.finishEvent steady firstAfter secondAfter (sameFailure _)
      refine ⟨finished, executed.trans (reported.trans (steady.notify_alike _ _ ?_))⟩
      rw [Notification.anonymous, Notification.anonymous, Notification.completed.injEq]
      exact ⟨sameActive, rfl, sameFailure []⟩

omit [StateKey κ] [Inspect τ] in
/-- Initial configurations are entered alike. -/
theorem Alike.enterInitial
    [StateKey κ] :
    (worker.enterInitial definition first).1.Alike (twin.enterInitial definition second).1 ∧
      Session.PerformAlike first second (worker.enterInitial definition first).2
        (twin.enterInitial definition second).2 := by
  unfold Worker.enterInitial
  extract_lets attempt progress moved active notified twinProgress movedTwin twinActive
    twinNotified
  have attempts_alike (first second : Session κ τ ω) (step : Step) :
      (attempt first step).1 = (attempt second step).1 ∧
        Session.PerformAlike first second (attempt first step).2 (attempt second step).2 := by
    cases step with
    | exit _ => exact ⟨rfl, .refl first second⟩
    | act _ => exact ⟨rfl, .refl first second⟩
    | enter state =>
        obtain ⟨result_eq, ran⟩ := Definition.runStateAction_alike first second
          fun action (present : definition.entryAction? state = some action) =>
            steady.entry present
        simp only [attempt]
        generalize Definition.runStateAction first (definition.entryAction? state) = one
          at result_eq ran ⊢
        generalize Definition.runStateAction second (definition.entryAction? state) = other
          at result_eq ran ⊢
        obtain ⟨result, firstAfter⟩ := one
        obtain ⟨_, secondAfter⟩ := other
        cases result_eq
        cases result with
        | ok _ => exact ⟨rfl, ran⟩
        | error failure => exact ⟨rfl, ran.trans (.note _ _ rfl rfl rfl)⟩
  obtain ⟨failure_eq, configuration_eq, taken⟩ :
      progress.failure = twinProgress.failure ∧
        progress.configuration = twinProgress.configuration ∧
        Session.PerformAlike first second progress.session twinProgress.session := by
    simp only [progress, twinProgress, alike.configuration_eq]
    exact takeSteps_alike attempts_alike _ _ first second
  clear_value progress twinProgress
  have sameActive : active = twinActive := by
    simp only [active, twinActive, Worker.active, moved, movedTwin, configuration_eq]
  refine ⟨⟨configuration_eq, alike.history, alike.count_eq⟩, taken.trans ?_⟩
  simp only [notified, twinNotified, failure_eq, sameActive]
  cases twinProgress.failure with
  | none => exact .note _ _ rfl rfl rfl
  | some error => exact steady.notify_alike _ _ rfl

/-- An event is processed alike. -/
theorem Alike.process
    [DecidableEq τ]
    {one other : Event τ}
    (sameEvent : one.anonymous = other.anonymous) :
    (worker.process definition one first).1.Alike (twin.process definition other second).1 ∧
      Session.PerformAlike first second (worker.process definition one first).2
        (twin.process definition other second).2 := by
  obtain ⟨sameContent, _⟩ := Event.anonymous_eq_iff.mp sameEvent
  have sameTrigger : one.trigger = other.trigger := congrArg Prod.fst sameContent
  have sameContext (leaves : List Nat) :
      (Context.new one (definition.graph.keys leaves)).anonymous =
        (Context.new other (definition.graph.keys leaves)).anonymous :=
    congrArg (Context.new · (definition.graph.keys leaves)) sameEvent
  rcases first_eq : worker.process definition one first with ⟨moved, firstAfter⟩
  rcases second_eq : twin.process definition other second with ⟨movedTwin, secondAfter⟩
  unfold Worker.process at first_eq second_eq
  rw [alike.configuration_eq, sameTrigger] at first_eq
  extract_lets leaves context begun candidates at first_eq
  extract_lets twinContext twinBegun at second_eq
  have begunAlike : Session.PerformAlike first second begun twinBegun := by
    refine Session.PerformAlike.trans (.note first second ?_ rfl rfl)
      (steady.notify_alike _ _ ?_)
    · simp only [Activity.trace?, sameEvent]
    · simp only [Notification.anonymous, context, twinContext, sameContext]
  have listed : ∀ entry ∈ candidates, entry ∈ definition.table.entries := by
    intro entry member
    obtain ⟨state, _, member⟩ := List.mem_flatMap.mp member
    exact (List.mem_filter.mp member).1
  obtain ⟨chosen_eq, faults_eq, choseAlike⟩ :=
    steady.choose_alike begun twinBegun listed sameContent
  rcases choice : definition.choose one candidates begun with ⟨chosen, faults, firstChosen⟩
  rcases twinChoice : definition.choose other candidates twinBegun with
    ⟨_, _, secondChosen⟩
  rw [choice, twinChoice] at chosen_eq faults_eq choseAlike
  rw [choice] at first_eq
  rw [twinChoice] at second_eq
  cases chosen_eq
  cases faults_eq
  have sameFaults : (context.fail faults).anonymous = (twinContext.fail faults).anonymous :=
    congrArg (Context.fail · faults) (sameContext leaves)
  cases chosen with
  | none =>
      obtain ⟨ended, declined⟩ :=
        alike.decline steady firstChosen secondChosen sameFaults
      dsimp only at first_eq second_eq
      rw [first_eq, second_eq] at ended declined
      exact ⟨ended, begunAlike.trans (choseAlike.trans declined)⟩
  | some entry =>
      have member : entry ∈ candidates :=
        Definition.mem_of_choose_eq_some (congrArg Prod.fst choice)
      obtain ⟨ended, followed⟩ :=
        alike.follow steady firstChosen secondChosen (listed entry member) sameFaults
      dsimp only at first_eq second_eq
      rw [first_eq, second_eq] at ended followed
      exact ⟨ended, begunAlike.trans (choseAlike.trans followed)⟩

end Worker
end Statechart
