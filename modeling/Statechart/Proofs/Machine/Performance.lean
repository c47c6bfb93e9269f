import Statechart.Proofs.Machine.Selection
import Statechart.Proofs.Machine.Tasks

/-!
# The deeds in parts of a task

Whatever callers do meanwhile, the deeds in a part of a task follow a pattern: observers
are told in order, the guards of candidates are asked until one allows its transition, and
steps are taken up to the first failure. What callbacks do is no deed of the worker.
-/

namespace Statechart

variable {κ τ ω α : Type}

/-- The deeds of telling some observers of something. -/
def told
    (observers : List (Observer κ τ ω))
    (notification : Notification κ τ) : List (Activity κ τ) :=
  (List.range observers.length).map fun observer => .notified observer notification

namespace Work

variable {deeds : List (Activity κ τ)}

/-! ## Callbacks and observers -/

/-- The requests of a program are no deeds of the worker. -/
theorem eq_nil_of_performs_ofProgram
    {program : Program κ τ α}
    {result : α}
    (performs : (ofProgram program : Work κ τ ω α).Performs deeds result) :
    deeds = [] := by
  induction program with
  | done other => exact (performs_done_iff.mp performs).1
  | fire event next inductionHypothesis =>
      obtain ⟨answer, performs⟩ := performs_fire_iff.mp performs
      exact inductionHypothesis answer performs
  | look next inductionHypothesis =>
      obtain ⟨session, performs⟩ := performs_read_iff.mp performs
      obtain ⟨later, rfl, performs⟩ := performs_note_iff.mp performs
      exact inductionHypothesis _ performs
  | log entry next inductionHypothesis =>
      obtain ⟨later, rfl, performs⟩ := performs_note_iff.mp performs
      exact inductionHypothesis performs

/-- The requests of a callback are no deeds of the worker. -/
theorem eq_nil_of_performs_call
    {callback : Callback κ τ ω α}
    {result : α}
    (performs : (call callback).Performs deeds result) :
    deeds = [] := by
  simp only [call, performs_read_iff, performs_bind_iff, performs_retain_iff,
    performs_done_iff] at performs
  obtain ⟨_, _, earlier, _, rfl, ran, rfl, _⟩ := performs
  rw [eq_nil_of_performs_ofProgram ran, List.append_nil]

/-- Observers are told in order, from the one with the given number on. -/
theorem eq_of_performs_notifyFrom
    {notification : Notification κ τ}
    {number : Nat}
    {observers : List (Observer κ τ ω)}
    (performs : (notifyFrom notification number observers).Performs deeds ()) :
    deeds = (List.range' number observers.length).map fun observer =>
      .notified observer notification := by
  induction observers generalizing number deeds with
  | nil => exact (performs_done_iff.mp performs).1
  | cons observer observers inductionHypothesis =>
      simp only [notifyFrom, performs_note_iff, performs_bind_iff] at performs
      obtain ⟨_, rfl, outcome, _, later, rfl, called, rest⟩ := performs
      obtain rfl := eq_nil_of_performs_call called
      rw [List.length_cons, List.range'_succ, List.map_cons]
      cases outcome with
      | returned _ => rw [inductionHypothesis rest]; rfl
      | panicked panic =>
          obtain ⟨_, rfl, rest⟩ := performs_note_iff.mp rest
          rw [inductionHypothesis rest]
          rfl

/-- All observers are told in order. -/
theorem eq_of_performs_notify
    {observers : List (Observer κ τ ω)}
    {notification : Notification κ τ}
    (performs : (notify observers notification).Performs deeds ()) :
    deeds = told observers notification := by
  rw [eq_of_performs_notifyFrom performs, told, List.range_eq_range']

/-- Notifications are given one after the other, each to all observers. -/
theorem eq_of_performs_notifyAll
    {observers : List (Observer κ τ ω)}
    {notifications : List (Notification κ τ)}
    (performs : (notifyAll observers notifications).Performs deeds ()) :
    deeds = notifications.flatMap (told observers) := by
  induction notifications generalizing deeds with
  | nil => exact (performs_done_iff.mp performs).1
  | cons notification notifications inductionHypothesis =>
      simp only [notifyAll, performs_bind_iff] at performs
      obtain ⟨_, earlier, later, rfl, first, rest⟩ := performs
      rw [eq_of_performs_notify first, inductionHypothesis rest, List.flatMap_cons]

/-! ## Selecting a transition -/

/-- Only a guard is asked. -/
theorem performs_consult
    {entry : Entry κ τ ω}
    {event : Event τ}
    {verdict : Except GuardFault Bool}
    (performs : (consult entry event).Performs deeds verdict) :
    (entry.transition.guard = none ∧ deeds = [] ∧ verdict = .ok true) ∨
      (entry.transition.guard.isSome = true ∧ deeds = [.asked entry.source verdict]) := by
  unfold consult at performs
  split at performs
  · rename_i unguarded
    exact .inl ⟨unguarded, performs_done_iff.mp performs⟩
  · rename_i guard guarded
    simp only [performs_bind_iff, performs_note_iff, performs_done_iff] at performs
    obtain ⟨_, _, _, rfl, called, _, rfl, rfl, rfl⟩ := performs
    obtain rfl := eq_nil_of_performs_call called
    exact .inr ⟨by rw [guarded]; rfl, rfl⟩

/-- The deeds of selecting an entry, if any, by some answers. -/
def selecting
    [StateKey κ]
    [Inspect τ]
    (answers : List (Entry κ τ ω × Except GuardFault Bool))
    (chosen : Option (Entry κ τ ω)) : List (Activity κ τ) :=
  (answers.map fun answer => .asked answer.1.source answer.2) ++
    (chosen.map fun entry => .selected entry.transition.describe).toList

/-- While a transition is selected guards are asked, and nothing else is noted. -/
theorem mem_selecting
    [StateKey κ]
    [Inspect τ]
    {answers : List (Entry κ τ ω × Except GuardFault Bool)}
    {chosen : Option (Entry κ τ ω)}
    {deed : Activity κ τ}
    (member : deed ∈ selecting answers chosen) :
    (∃ source verdict, deed = .asked source verdict) ∨
      ∃ transition, deed = .selected transition := by
  rcases List.mem_append.mp member with asked | selected
  · obtain ⟨_, _, rfl⟩ := List.mem_map.mp asked
    exact .inl ⟨_, _, rfl⟩
  · obtain ⟨_, _, rfl⟩ := Option.map_eq_some_iff.mp (Option.mem_toList.mp selected)
    exact .inr ⟨_, rfl⟩

/-- Choosing among entries that fit the graph selects the first one that is allowed. -/
theorem performs_choose
    [DecidableEq κ]
    [StateKey κ]
    [Inspect τ]
    {definition : Definition κ τ ω}
    (forest : definition.graph.IsForest)
    {event : Event τ}
    {candidates : List (Entry κ τ ω)}
    (fits : ∀ entry ∈ candidates,
      Table.entryOf definition.graph entry.transition = .ok entry)
    {chosen : Option (Entry κ τ ω)}
    {faults : List StepError}
    (performs : (choose definition event candidates).Performs deeds (chosen, faults)) :
    ∃ answers, Definition.Selects event candidates answers chosen faults ∧
      deeds = selecting answers chosen := by
  induction candidates generalizing deeds chosen faults with
  | nil =>
      obtain ⟨rfl, result_eq⟩ := performs_done_iff.mp performs
      cases result_eq
      exact ⟨[], Definition.selects_nil, rfl⟩
  | cons entry candidates inductionHypothesis =>
      have rest_fits : ∀ other ∈ candidates,
          Table.entryOf definition.graph other.transition = .ok other :=
        fun other member => fits other (List.mem_cons_of_mem _ member)
      have name_eq := Table.nameOf_source_of_entryOf forest (fits entry List.mem_cons_self)
      simp only [choose, performs_bind_iff] at performs
      obtain ⟨verdict, earlier, later, rfl, consulted, rest⟩ := performs
      obtain ⟨unguarded, rfl, rfl⟩ | ⟨guarded, rfl⟩ := performs_consult consulted
      · obtain ⟨_, rfl, ended⟩ := performs_note_iff.mp rest
        obtain ⟨rfl, result_eq⟩ := performs_done_iff.mp ended
        cases result_eq
        exact ⟨[], Definition.selects_of_unguarded unguarded, rfl⟩
      · cases verdict with
        | ok allowed =>
            cases allowed with
            | true =>
                obtain ⟨_, rfl, ended⟩ := performs_note_iff.mp rest
                obtain ⟨rfl, result_eq⟩ := performs_done_iff.mp ended
                cases result_eq
                exact ⟨[(entry, .ok true)], Definition.selects_of_allowed guarded, rfl⟩
            | false =>
                obtain ⟨answers, selects, rfl⟩ := inductionHypothesis rest_fits rest
                exact ⟨(entry, .ok false) :: answers, selects.of_denied guarded (by simp), rfl⟩
        | error fault =>
            simp only [performs_bind_iff, performs_done_iff, Prod.mk.injEq] at rest
            obtain ⟨⟨other, others⟩, _, _, rfl, chose, rfl, rfl, rfl⟩ := rest
            obtain ⟨answers, selects, rfl⟩ := inductionHypothesis rest_fits chose
            refine ⟨(entry, .error fault) :: answers, ?_, by simp [selecting]⟩
            rw [name_eq]
            exact selects.of_denied guarded (by simp)

/-! ## Taking steps -/

/-- How steps are taken one after the other. A failed one may be told of beforehand. -/
inductive Taken
    (fails : Step → StepError → List (Activity κ τ) → Prop)
    (steps : List Step) : List Step → Option StepError → List (Activity κ τ) → Prop
  /-- All steps are completed. -/
  | all : Taken fails steps steps none (steps.map .completed)
  /-- The steps before a failed one are completed. -/
  | upTo
      {done rest : List Step}
      {step : Step}
      {error : StepError}
      {report : List (Activity κ τ)}
      (steps_eq : steps = done ++ step :: rest)
      (failed : fails step error report) :
      Taken fails steps done (some error)
        (done.map .completed ++ report ++ [.failed step error])

namespace Taken

variable
  {fails : Step → StepError → List (Activity κ τ) → Prop}
  {steps done : List Step}
  {failure : Option StepError}

/-- A completed step comes before the others. -/
theorem cons
    (taken : Taken fails steps done failure deeds)
    (step : Step) :
    Taken fails (step :: steps) (step :: done) failure (.completed step :: deeds) := by
  cases taken with
  | all => exact .all
  | upTo steps_eq failed => exact .upTo (by rw [steps_eq, List.cons_append]) failed

/-- Each deed is a completed step, told of a failure beforehand, or the failure. -/
theorem mem_cases
    (taken : Taken fails steps done failure deeds)
    {deed : Activity κ τ}
    (member : deed ∈ deeds) :
    (∃ step, deed = .completed step) ∨
      (∃ step error report, fails step error report ∧ deed ∈ report) ∨
        ∃ step error, deed = .failed step error ∧ failure = some error := by
  cases taken with
  | all =>
      obtain ⟨step, _, rfl⟩ := List.mem_map.mp member
      exact .inl ⟨step, rfl⟩
  | upTo _ failed =>
      rw [List.mem_append, List.mem_append, List.mem_singleton] at member
      obtain (completed | reported) | rfl := member
      · obtain ⟨step, _, rfl⟩ := List.mem_map.mp completed
        exact .inl ⟨step, rfl⟩
      · exact .inr (.inl ⟨_, _, _, failed, reported⟩)
      · exact .inr (.inr ⟨_, _, rfl, rfl⟩)

end Taken

/-- Steps are taken one after the other up to the first failure. -/
theorem performs_takeSteps
    {attempt : Step → Work κ τ ω (Except StepError Unit)}
    {fails : Step → StepError → List (Activity κ τ) → Prop}
    (attempt_ok : ∀ step deeds, (attempt step).Performs deeds (.ok ()) → deeds = [])
    (attempt_fails : ∀ step deeds error,
      (attempt step).Performs deeds (.error error) → fails step error deeds)
    {steps : List Step}
    {configuration : Configuration}
    {failure : Option StepError}
    {reached : Configuration}
    (performs : (takeSteps attempt steps configuration).Performs deeds (failure, reached)) :
    ∃ done, Taken fails steps done failure deeds ∧ reached = configuration.after done := by
  induction steps generalizing configuration deeds with
  | nil =>
      obtain ⟨rfl, result_eq⟩ := performs_done_iff.mp performs
      cases result_eq
      exact ⟨[], .all, rfl⟩
  | cons step steps inductionHypothesis =>
      simp only [takeSteps, performs_bind_iff] at performs
      obtain ⟨result, earlier, later, rfl, attempted, rest⟩ := performs
      cases result with
      | ok _ =>
          obtain rfl := attempt_ok step earlier attempted
          obtain ⟨_, rfl, next⟩ := performs_note_iff.mp rest
          obtain ⟨done, taken, reached_eq⟩ := inductionHypothesis next
          exact ⟨step :: done, taken.cons step, reached_eq⟩
      | error error =>
          have failed := attempt_fails step earlier error attempted
          obtain ⟨_, rfl, ended⟩ := performs_note_iff.mp rest
          obtain ⟨rfl, result_eq⟩ := performs_done_iff.mp ended
          cases result_eq
          exact ⟨[], .upTo rfl failed, rfl⟩

/-- A state action is no deed of the worker. -/
theorem eq_nil_of_performs_runStateAction
    {action : Option (StateAction κ τ ω)}
    {result : Except Failure Unit}
    (performs : (runStateAction action).Performs deeds result) :
    deeds = [] := by
  cases action with
  | none => exact (performs_done_iff.mp performs).1
  | some action => exact eq_nil_of_performs_call performs

end Work

/-- The error for a step of an entry that has failed. -/
def Definition.failureOf
    [StateKey κ]
    [Inspect τ]
    (definition : Definition κ τ ω)
    (entry : Entry κ τ ω)
    (event : Event τ) : Step → Failure → StepError
  | .exit state => .exitFailed (definition.graph.nameOf state)
  | .act _ =>
      .actionFailed (definition.graph.nameOf entry.source) (inspect event.trigger)
  | .enter state => .entryFailed (definition.graph.nameOf state)

/-- A failed step is no guard fault. -/
@[simp] theorem Definition.isGuardFault_failureOf
    [StateKey κ]
    [Inspect τ]
    (definition : Definition κ τ ω)
    (entry : Entry κ τ ω)
    (event : Event τ)
    (step : Step)
    (cause : Failure) :
    (definition.failureOf entry event step cause).isGuardFault = false := by
  cases step <;> rfl

namespace Work

variable {deeds : List (Activity κ τ)}

section Execute

variable
  [DecidableEq κ]
  [StateKey κ]
  [Inspect τ]
  {definition : Definition κ τ ω}
  {entry : Entry κ τ ω}
  {event : Event τ}

/-- An attempt at a step of a transition is no deed, and its failure names the step. -/
theorem performs_attempt
    {step : Step}
    {result : Except StepError Unit}
    (performs : (attempt definition entry.source entry.transition.actions event step).Performs
      deeds result) :
    deeds = [] ∧ ∀ error, result = .error error →
      ∃ cause, error = definition.failureOf entry event step cause := by
  have of_mapError
      {name : Failure → StepError}
      {outcome : Except Failure Unit}
      (result_eq : result = outcome.mapError name) :
      ∀ error, result = .error error → ∃ cause, error = name cause := by
    rintro error failed
    rw [failed] at result_eq
    cases outcome with
    | ok _ => contradiction
    | error cause => exact ⟨cause, Except.error.inj result_eq⟩
  cases step with
  | exit state =>
      simp only [attempt, performs_bind_iff, performs_done_iff] at performs
      obtain ⟨outcome, _, _, rfl, ran, rfl, result_eq⟩ := performs
      rw [eq_nil_of_performs_runStateAction ran]
      exact ⟨rfl, of_mapError result_eq⟩
  | act position =>
      simp only [attempt] at performs
      split at performs
      · obtain ⟨rfl, rfl⟩ := performs_done_iff.mp performs
        exact ⟨rfl, by simp⟩
      · simp only [performs_bind_iff, performs_done_iff] at performs
        obtain ⟨outcome, _, _, rfl, ran, rfl, result_eq⟩ := performs
        rw [eq_nil_of_performs_call ran]
        exact ⟨rfl, of_mapError result_eq⟩
  | enter state =>
      simp only [attempt, performs_bind_iff, performs_done_iff] at performs
      obtain ⟨outcome, _, _, rfl, ran, rfl, result_eq⟩ := performs
      rw [eq_nil_of_performs_runStateAction ran]
      exact ⟨rfl, of_mapError result_eq⟩

/-- A step of a transition fails with an error that names it. Nothing is told of it before
the end of the event. -/
def StepFails
    (definition : Definition κ τ ω)
    (entry : Entry κ τ ω)
    (event : Event τ)
    (step : Step)
    (error : StepError)
    (report : List (Activity κ τ)) : Prop :=
  report = [] ∧ ∃ cause, error = definition.failureOf entry event step cause

/-- The deed of planning a transition. -/
def planning (definition : Definition κ τ ω) (plan : Option Plan) : List (Activity κ τ) :=
  (plan.map fun plan =>
    .planned (definition.graph.keys plan.exits) (definition.graph.keys plan.entries)).toList

/-- The steps of a transition are taken up to the first failure. -/
theorem performs_execute
    {configuration reached : Configuration}
    {failure : Option StepError}
    (performs : (execute definition entry event configuration).Performs deeds
      (failure, reached)) :
    ∃ done steps,
      Taken (StepFails definition entry event)
          (Definition.stepsOf entry (definition.planOf? configuration entry)) done failure steps ∧
        deeds = planning definition (definition.planOf? configuration entry) ++ steps ∧
        reached = configuration.after done := by
  have attempt_ok (step : Step) (deeds : List (Activity κ τ))
      (performs : (attempt definition entry.source entry.transition.actions event step).Performs
        deeds (.ok ())) : deeds = [] :=
    (performs_attempt performs).1
  have attempt_fails (step : Step) (deeds : List (Activity κ τ)) (error : StepError)
      (performs : (attempt definition entry.source entry.transition.actions event step).Performs
        deeds (.error error)) : StepFails definition entry event step error deeds :=
    ⟨(performs_attempt performs).1, (performs_attempt performs).2 error rfl⟩
  simp only [execute] at performs
  cases planned : definition.planOf? configuration entry with
  | none =>
      simp only [planned] at performs
      obtain ⟨done, taken, reached_eq⟩ := performs_takeSteps attempt_ok attempt_fails performs
      exact ⟨done, deeds, taken, rfl, reached_eq⟩
  | some plan =>
      simp only [planned, performs_note_iff] at performs
      obtain ⟨steps, rfl, performs⟩ := performs
      obtain ⟨done, taken, reached_eq⟩ := performs_takeSteps attempt_ok attempt_fails performs
      exact ⟨done, steps, taken, rfl, reached_eq⟩

end Execute
end Work
end Statechart
