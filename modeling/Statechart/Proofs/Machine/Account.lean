import Statechart.Proofs.Machine.Performance

/-!
# Accounts of events

Whatever callers do meanwhile, the deeds of a worker at an event follow a pattern. The
event is told to all observers, guards are asked, steps are taken up to the first failure,
the new snapshot is published, and at last the observers are told what went wrong and how
the event ended.
-/

namespace Statechart

variable {κ τ ω : Type}

/-- The deeds of telling some observers of the failures in a context, and then of the
end. -/
def reporting
    (observers : List (Observer κ τ ω))
    (context : Context κ τ)
    (closing : List (Notification κ τ)) : List (Activity κ τ) :=
  (context.errors.map (Notification.exception context) ++ closing).flatMap (told observers)

/-- The worker after it has counted an event. -/
def Worker.counted (worker : Worker κ) (clock : Timestamp) : Worker κ :=
  { worker with metadata :=
      { worker.metadata with
        count := worker.metadata.count + 1
        updatedAt := clock } }

/-! ## The account of an event -/

/-- What a worker made of an event. -/
structure Account (κ τ ω : Type) where
  event : Event τ
  /-- The worker before the event. -/
  before : Worker κ
  /-- The entries whose guards were asked, with the answers. -/
  answers : List (Entry κ τ ω × Except GuardFault Bool)
  /-- The entry that was selected. -/
  chosen : Option (Entry κ τ ω)
  /-- The faults of the guards. -/
  faults : List StepError
  /-- The steps that were completed. -/
  done : List Step
  /-- The deeds of taking the steps. -/
  steps : List (Activity κ τ)
  /-- The failure of a step. -/
  failure : Option StepError
  /-- The time at which the transition was recorded. -/
  recordedAt : Timestamp
  /-- The time at which the event was counted. -/
  countedAt : Timestamp

namespace Account

section Account

variable [StateKey κ] [Inspect τ] (definition : Definition κ τ ω) (account : Account κ τ ω)

/-- What is known about the event when it begins. -/
def begun : Context κ τ :=
  .new account.event (account.before.active definition)

/-- All failures, in order. -/
def errors : List StepError :=
  account.faults ++ account.failure.toList

/-- What is known about the event in the end. -/
def context : Context κ τ :=
  let begun := account.begun definition
  match account.chosen with
  | none => { begun with errors := account.errors }
  | some entry =>
      { begun with
        source := some entry.transition.source
        target := entry.target.bind definition.graph.key?
        transition := some entry.transition.describe
        errors := account.errors }

/-- The configuration after the event. -/
def configuration : Configuration :=
  account.before.configuration.after account.done

/-- The keys of the active leaves after the event. -/
def active : List κ :=
  definition.graph.keys (account.configuration.leaves definition.graph)

/-- The record of a completed transition. -/
def record : Record κ :=
  ⟨account.before.active definition, account.active definition,
    inspect account.event.trigger, account.event.number, account.recordedAt⟩

/-- Whether a transition was selected and completed. -/
def isCompleted : Bool :=
  account.chosen.isSome && account.failure.isNone

/-- The worker after the event. -/
def after : Worker κ :=
  Worker.counted
    { account.before with
      configuration := account.configuration
      history :=
        if account.isCompleted then account.before.history.record (account.record definition)
        else account.before.history }
    account.countedAt

/-- How the observers are told of the end of the event. -/
def closing : List (Notification κ τ) :=
  match account.chosen, account.failure with
  | none, _ => [.declined (account.context definition)]
  | some _, none =>
      [.completed (account.before.active definition) (account.active definition)
        (account.context definition)]
  | some _, some _ => []

/-- The deeds of the worker before it counts the event. -/
def early : List (Activity κ τ) :=
  told definition.observers (.begin (account.begun definition)) ++
    Work.selecting account.answers account.chosen ++ account.steps

/-- The deeds of the worker after the event has begun. -/
def deeds : List (Activity κ τ) :=
  account.early definition ++ .published ((account.after definition).snapshot definition) ::
    reporting definition.observers (account.context definition) (account.closing definition)

/-- The deeds of the worker from the beginning of the event on. -/
def chapter : List (Activity κ τ) :=
  .began account.event :: account.deeds definition

end Account

/-- An account is right about the selection and the steps. -/
structure IsRight
    [DecidableEq κ]
    [StateKey κ]
    [DecidableEq τ]
    [Inspect τ]
    (definition : Definition κ τ ω)
    (account : Account κ τ ω) : Prop where
  /-- The answers of the guards decide what is selected. -/
  selects : Definition.Selects account.event
    (definition.table.candidatesFrom definition.graph
      (account.before.configuration.leaves definition.graph) account.event.trigger)
    account.answers account.chosen account.faults
  /-- If nothing is selected no step is taken. -/
  idle : account.chosen = none →
    account.done = [] ∧ account.steps = [] ∧ account.failure = none
  /-- The steps of the selected entry are taken up to the first failure. -/
  taken {entry : Entry κ τ ω} : account.chosen = some entry →
    ∃ steps, account.steps =
        Work.planning definition
          (definition.planOf? account.before.configuration entry) ++ steps ∧
      Work.Taken (Work.StepFails definition entry account.event)
        (Definition.stepsOf entry (definition.planOf? account.before.configuration entry))
        account.done account.failure steps

/-- The steps and the failure are those of carrying out the selected entry. -/
def Executes
    [DecidableEq κ]
    [StateKey κ]
    [Inspect τ]
    (definition : Definition κ τ ω)
    (account : Account κ τ ω) : Prop :=
  ∀ entry, account.chosen = some entry →
    (Work.execute definition entry account.event account.before.configuration).Performs
      account.steps (account.failure, account.configuration)

end Account

/-! ## What is published -/

/-- Telling observers publishes nothing. -/
theorem published?_of_mem_told
    {observers : List (Observer κ τ ω)}
    {notification : Notification κ τ}
    {deed : Activity κ τ}
    (member : deed ∈ told observers notification) :
    deed.published? = none := by
  obtain ⟨observer, _, rfl⟩ := List.mem_map.mp member
  rfl

theorem published?_of_mem_reporting
    {observers : List (Observer κ τ ω)}
    {context : Context κ τ}
    {closing : List (Notification κ τ)}
    {deed : Activity κ τ}
    (member : deed ∈ reporting observers context closing) :
    deed.published? = none := by
  obtain ⟨notification, _, member⟩ := List.mem_flatMap.mp member
  exact published?_of_mem_told member

namespace Account

section Published

variable [StateKey κ] [Inspect τ] {definition : Definition κ τ ω} {account : Account κ τ ω}

/-- The event is counted between the early deeds and the reports. -/
theorem deeds_eq_append :
    account.deeds definition = account.early definition ++
      [.published ((account.after definition).snapshot definition)] ++
        reporting definition.observers (account.context definition)
          (account.closing definition) :=
  List.append_cons ..

/-- On the way through an event it has not been counted yet, or it is being reported. -/
theorem cases_of_isPrefix_deeds
    {sofar : List (Activity κ τ)}
    (onTheWay : sofar <+: account.deeds definition) :
    sofar <+: account.early definition ∨
      ∃ told, told <+: reporting definition.observers (account.context definition)
          (account.closing definition) ∧
        sofar = account.early definition ++
          [.published ((account.after definition).snapshot definition)] ++ told := by
  have counted : account.early definition ++
      [.published ((account.after definition).snapshot definition)] <+:
        account.deeds definition :=
    ⟨_, deeds_eq_append.symm⟩
  rcases List.prefix_or_prefix_of_prefix onTheWay counted with before | ⟨told, rfl⟩
  · rcases List.prefix_concat_iff.mp before with justCounted | early
    · exact .inr ⟨[], List.nil_prefix, by rw [justCounted, List.append_nil]⟩
    · exact .inl early
  · rw [deeds_eq_append, List.prefix_append_right_inj] at onTheWay
    exact .inr ⟨told, onTheWay, rfl⟩

/-- After an event the worker is shown as it is then. -/
theorem shownAfter_chapter (shown : Snapshot κ) :
    Session.shownAfter shown (account.chapter definition) =
      (account.after definition).snapshot definition := by
  rw [chapter, deeds_eq_append, ← List.cons_append, ← List.cons_append,
    Session.shownAfter_append, Session.shownAfter_append]
  exact Session.shownAfter_eq_self (fun _ member => published?_of_mem_reporting member) _

variable [DecidableEq κ] [DecidableEq τ]

/-- While steps are taken the worker only notes the plan, the completed steps and a
failure. -/
theorem IsRight.mem_steps
    (isRight : account.IsRight definition)
    {deed : Activity κ τ}
    (member : deed ∈ account.steps) :
    (∃ exits entries, deed = .planned exits entries) ∨ (∃ step, deed = .completed step) ∨
      ∃ step error, deed = .failed step error ∧ account.failure = some error := by
  cases selection : account.chosen with
  | none =>
      rw [(isRight.idle selection).2.1] at member
      contradiction
  | some entry =>
      obtain ⟨steps, steps_eq, taken⟩ := isRight.taken selection
      rw [steps_eq, List.mem_append] at member
      rcases member with member | member
      · obtain ⟨plan, _, rfl⟩ := Option.map_eq_some_iff.mp (Option.mem_toList.mp member)
        exact .inl ⟨_, _, rfl⟩
      · rcases taken.mem_cases member with completed | ⟨_, _, _, ⟨rfl, _⟩, member⟩ | failed
        · exact .inr (.inl completed)
        · contradiction
        · exact .inr (.inr failed)

/-- Nothing is published before the event is counted. -/
theorem IsRight.published?_of_mem_early
    (isRight : account.IsRight definition)
    {deed : Activity κ τ}
    (member : deed ∈ account.early definition) :
    deed.published? = none := by
  rw [early, List.mem_append, List.mem_append] at member
  rcases member with (member | member) | member
  · exact published?_of_mem_told member
  · rcases Work.mem_selecting member with ⟨_, _, rfl⟩ | ⟨_, rfl⟩
    · rfl
    · rfl
  · rcases isRight.mem_steps member with ⟨_, _, rfl⟩ | ⟨_, rfl⟩ | ⟨_, _, rfl, _⟩
    · rfl
    · rfl
    · rfl

/-- On the way through an event the snapshot stays until the event is counted, and from then
on it is the new one. -/
theorem IsRight.shownAfter_of_isPrefix
    (isRight : account.IsRight definition)
    {sofar : List (Activity κ τ)}
    (onTheWay : sofar <+: account.deeds definition)
    (shown : Snapshot κ) :
    ((∀ deed ∈ sofar, deed.published? = none) ∧ Session.shownAfter shown sofar = shown) ∨
      ((∃ deed ∈ sofar, deed.published? ≠ none) ∧
        Session.shownAfter shown sofar = (account.after definition).snapshot definition) := by
  rcases cases_of_isPrefix_deeds onTheWay with early | ⟨told, reported, rfl⟩
  · have nothing : ∀ deed ∈ sofar, deed.published? = none :=
      fun deed member => isRight.published?_of_mem_early (early.subset member)
    exact .inl ⟨nothing, Session.shownAfter_eq_self nothing shown⟩
  · refine .inr ⟨⟨_, List.mem_append_left _ (List.mem_append_right _
      (List.mem_singleton_self _)), nofun⟩, ?_⟩
    rw [Session.shownAfter_append, Session.shownAfter_append]
    exact Session.shownAfter_eq_self
      (fun deed member => published?_of_mem_reporting (reported.subset member)) _

end Published
end Account

namespace Work

section Process

variable
  [DecidableEq κ]
  [StateKey κ]
  [DecidableEq τ]
  [Inspect τ]
  {definition : Definition κ τ ω}
  {deeds : List (Activity κ τ)}

omit [DecidableEq κ] [StateKey κ] [DecidableEq τ] [Inspect τ] in
/-- An event is counted, and the worker is published. -/
theorem performs_finishEvent
    {worker after : Worker κ}
    (performs : (finishEvent definition worker).Performs deeds after) :
    ∃ clock, after = worker.counted clock ∧
      deeds = [.published ((worker.counted clock).snapshot definition)] := by
  simp only [finishEvent, performs_read_iff, performs_publish_iff, performs_done_iff] at performs
  obtain ⟨session, _, rfl, rfl, rfl⟩ := performs
  exact ⟨session.clock, rfl, rfl⟩

omit [DecidableEq κ] [StateKey κ] [DecidableEq τ] [Inspect τ] in
/-- An event that is declined is counted before its failures and its end are reported. -/
theorem performs_decline
    {worker after : Worker κ}
    {context : Context κ τ}
    (performs : (decline definition worker context).Performs deeds after) :
    ∃ clock, after = worker.counted clock ∧
      deeds = .published ((worker.counted clock).snapshot definition) ::
        reporting definition.observers context [.declined context] := by
  simp only [decline, performs_bind_iff, performs_done_iff] at performs
  obtain ⟨_, _, _, rfl, finishes, _, _, _, rfl, reports, _, _, _, rfl, closes, rfl, rfl⟩ :=
    performs
  obtain ⟨clock, rfl, rfl⟩ := performs_finishEvent finishes
  refine ⟨clock, rfl, ?_⟩
  rw [eq_of_performs_notifyAll reports, eq_of_performs_notify closes, reporting,
    List.flatMap_append]
  simp

omit [DecidableEq τ] in
/-- An entry that is followed takes its steps, and the event is counted before its failures
and its end are reported. Only a completed transition is recorded. -/
theorem performs_follow
    {worker after : Worker κ}
    {entry : Entry κ τ ω}
    {context : Context κ τ}
    (performs : (follow definition worker entry context).Performs deeds after) :
    ∃ done steps failure clock recordedAt,
      Taken (StepFails definition entry context.event)
          (Definition.stepsOf entry (definition.planOf? worker.configuration entry)) done failure
          steps ∧
        (execute definition entry context.event worker.configuration).Performs
          (planning definition (definition.planOf? worker.configuration entry) ++ steps)
          (failure, worker.configuration.after done) ∧
        let moved := { worker with configuration := worker.configuration.after done }
        let told := (context.select entry.transition.source
          (entry.target.bind definition.graph.key?) entry.transition.describe).fail failure.toList
        let record : Record κ :=
          ⟨context.active, moved.active definition, inspect context.event.trigger,
            context.event.number, recordedAt⟩
        after =
            (if failure.isNone then { moved with history := moved.history.record record }
              else moved).counted clock ∧
          deeds = planning definition (definition.planOf? worker.configuration entry) ++ steps ++
            .published (after.snapshot definition) ::
              reporting definition.observers told
                (if failure.isNone then
                  [.completed context.active (moved.active definition) told]
                else []) := by
  simp only [follow, performs_bind_iff] at performs
  obtain ⟨⟨failure, configuration⟩, _, _, rfl, executes, ends⟩ := performs
  obtain ⟨done, steps, taken, rfl, rfl⟩ := performs_execute executes
  cases failure with
  | none =>
      simp only [performs_read_iff, performs_bind_iff, performs_done_iff] at ends
      obtain ⟨session, _, _, _, rfl, finishes, _, _, _, rfl, reports, _, _, _, rfl, closes, rfl,
        rfl⟩ := ends
      obtain ⟨clock, rfl, rfl⟩ := performs_finishEvent finishes
      refine ⟨done, steps, none, clock, session.clock, taken, executes, rfl, ?_⟩
      rw [eq_of_performs_notifyAll reports, eq_of_performs_notify closes, reporting,
        List.flatMap_append]
      simp only [Option.isNone_none, if_true, List.flatMap_singleton, List.append_nil,
        List.singleton_append]
      rfl
  | some error =>
      simp only [performs_bind_iff, performs_done_iff] at ends
      obtain ⟨_, _, _, rfl, finishes, _, _, _, rfl, reports, rfl, rfl⟩ := ends
      obtain ⟨clock, rfl, rfl⟩ := performs_finishEvent finishes
      refine ⟨done, steps, some error, clock, clock, taken, executes, rfl, ?_⟩
      rw [eq_of_performs_notifyAll reports, reporting]
      simp

/-- What is begun with a selection leads to an account of the event. -/
theorem exists_account_of_choice
    (forest : definition.graph.IsForest)
    (fits : definition.table.Fits definition.graph)
    {worker after : Worker κ}
    {event : Event τ}
    {chosen : Option (Entry κ τ ω)}
    {faults : List StepError}
    {selected rest : List (Activity κ τ)}
    (chooses : (choose definition event
      (definition.table.candidatesFrom definition.graph
        (worker.configuration.leaves definition.graph) event.trigger)).Performs selected
          (chosen, faults))
    (ends : (match chosen with
      | none =>
          decline definition worker
            ((Context.new event (worker.active definition)).fail faults)
      | some entry =>
          follow definition worker entry
            ((Context.new event (worker.active definition)).fail faults)).Performs rest after) :
    ∃ account : Account κ τ ω, account.IsRight definition ∧ account.event = event ∧
      account.before = worker ∧ account.chosen = chosen ∧
        account.deeds definition =
          told definition.observers (.begin (Context.new event (worker.active definition))) ++
            (selected ++ rest) ∧
          account.after definition = after ∧ account.Executes definition := by
  have candidates_fit : ∀ entry ∈ definition.table.candidatesFrom definition.graph
      (worker.configuration.leaves definition.graph) event.trigger,
        Table.entryOf definition.graph entry.transition = .ok entry := by
    intro entry member
    obtain ⟨_, _, listed⟩ := List.mem_flatMap.mp member
    exact fits entry (List.mem_filter.mp listed).1
  obtain ⟨answers, selects, rfl⟩ := performs_choose forest candidates_fit chooses
  cases chosen with
  | none =>
      obtain ⟨clock, rfl, rfl⟩ := performs_decline ends
      refine ⟨⟨event, worker, answers, none, faults, [], [], none, clock, clock⟩,
        ⟨selects, fun _ => ⟨rfl, rfl, rfl⟩, by simp⟩, rfl, rfl, rfl, ?_, rfl, nofun⟩
      have context_eq :
          Account.context definition
              ⟨event, worker, answers, none, faults, [], [], none, clock, clock⟩ =
            (Context.new event (worker.active definition)).fail faults := by
        simp [Account.context, Account.begun, Account.errors, Context.fail, Context.new]
      rw [Account.deeds, context_eq, Account.early, List.append_nil, List.append_assoc]
      rw [Account.closing, context_eq]
      rfl
  | some entry =>
      obtain ⟨done, steps, failure, clock, recordedAt, taken, executes, after_eq, rfl⟩ :=
        performs_follow ends
      let account : Account κ τ ω :=
        ⟨event, worker, answers, some entry, faults, done,
          planning definition (definition.planOf? worker.configuration entry) ++ steps, failure,
          recordedAt, clock⟩
      have isAfter : account.after definition = after := by
        rw [after_eq]
        cases failure with
        | none => rfl
        | some error => rfl
      refine ⟨account, ⟨selects, by simp [account], ?_⟩, rfl, rfl, rfl, ?_, isAfter, ?_⟩
      · rintro _ ⟨rfl⟩
        exact ⟨steps, rfl, taken⟩
      · have early_eq : account.early definition =
            told definition.observers
                (.begin (Context.new event (worker.active definition))) ++
              (selecting answers (some entry) ++
                (planning definition (definition.planOf? worker.configuration entry) ++ steps)) :=
          List.append_assoc ..
        rw [Account.deeds, isAfter, early_eq]
        simp only [List.append_assoc]
        cases failure with
        | none => rfl
        | some error => rfl
      · rintro _ ⟨rfl⟩
        exact executes

/-- A worker gives an account of every event that it processes. -/
theorem exists_account_of_performs_process
    (forest : definition.graph.IsForest)
    (fits : definition.table.Fits definition.graph)
    {worker after : Worker κ}
    {event : Event τ}
    (performs : (process definition worker event).Performs deeds after) :
    ∃ account : Account κ τ ω, account.IsRight definition ∧ account.event = event ∧
      account.before = worker ∧ account.deeds definition = deeds ∧
        account.after definition = after ∧ account.Executes definition := by
  simp only [process, performs_bind_iff] at performs
  obtain ⟨_, opening, _, rfl, begins, ⟨chosen, faults⟩, _, rest, rfl, chooses, ends⟩ := performs
  obtain rfl := eq_of_performs_notify begins
  obtain ⟨account, isRight, event_eq, before_eq, _, account_of⟩ :=
    exists_account_of_choice forest fits chooses ends
  exact ⟨account, isRight, event_eq, before_eq, account_of⟩

end Process
end Work
end Statechart
