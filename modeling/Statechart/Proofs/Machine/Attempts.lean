import Statechart.Proofs.Machine.Duties
import Statechart.Proofs.Machine.Evolution
import Statechart.Proofs.Machine.Regularity

/-!
# Steps carried out up to a failure

Steps that are carried out in turn come as far as the first one that fails. Those before it are
completed and stay completed. It is attempted itself, but what it would have changed is as it
was, and its failure is captured. Nothing behind it is attempted.
-/

namespace Statechart

variable {κ τ ω : Type}

/-! ## How far steps have come -/

/-- The step has not been taken: a state to be left is still active, and a state to be entered
is not yet active. -/
def Step.IsUndone (configuration : Configuration) : Step → Prop
  | .exit state => configuration.isActive state = true
  | .act _ => True
  | .enter state => configuration.isActive state = false

/-- A step that can be taken has not been taken. -/
theorem Step.IsSound.isUndone
    {graph : Graph κ}
    {configuration : Configuration}
    {step : Step}
    (sound : step.IsSound graph configuration) :
    step.IsUndone configuration := by
  cases step with
  | exit state => exact sound.1
  | act position => trivial
  | enter state => exact sound.2.1

/-- No state is left behind a state that is entered. -/
def ExitsFirst (steps : List Step) : Prop :=
  steps.Pairwise fun earlier later => ∀ entered left, earlier = .enter entered → later ≠ .exit left

/-- A plan leaves states before it enters others. -/
theorem exitsFirst_plan (exits positions entries : List Nat) :
    ExitsFirst (exits.map .exit ++ positions.map .act ++ entries.map .enter) := by
  simp [ExitsFirst, List.pairwise_append, List.pairwise_map, List.pairwise_of_forall]

/-- After a sound run that leaves states first, those states are active that were active and
have not been left, and those that have been entered. -/
theorem SoundSteps.isActive_after_iff
    {graph : Graph κ}
    {configuration : Configuration}
    {steps : List Step}
    (sound : SoundSteps graph configuration steps)
    (flags_size : configuration.flags.size = graph.size)
    (exitsFirst : ExitsFirst steps)
    {state : Nat} :
    (configuration.after steps).isActive state = true ↔
      (configuration.isActive state = true ∧ .exit state ∉ steps) ∨ .enter state ∈ steps := by
  induction steps generalizing configuration with
  | nil => simp
  | cons step steps inductionHypothesis =>
      obtain ⟨first, exitsFirst⟩ := List.pairwise_cons.mp exitsFirst
      rw [Configuration.after_cons, inductionHypothesis sound.2
        ((Step.flags_size_apply _ _).trans flags_size) exitsFirst]
      cases step with
      | exit other =>
          rw [Step.apply, Configuration.isActive_deactivate]
          by_cases same : other = state
          · simp [same]
          · simp [same, Ne.symm same]
      | act position => simp [Step.apply]
      | enter other =>
          rw [Step.apply, Configuration.isActive_activate]
          by_cases same : other = state
          · have inside : state < configuration.flags.size := by
              rw [flags_size, ← same]
              exact sound.1.1
            have notLeft : .exit state ∉ steps := fun member =>
              first _ member other state rfl rfl
            simp [same, inside, notLeft]
          · simp [same, Ne.symm same]

/-- Steps are carried out in turn up to the first failure. -/
structure CarriesOut
    (dutyOf? : Step → Option (Duty κ τ ω))
    (before after : Configuration)
    (steps attempted done : List Step)
    (failure : Option StepError) : Prop where
  /-- What there is to do at the completed steps succeeds. -/
  succeed : Succeed dutyOf? done
  /-- All steps are attempted and completed, or the callback of the step after the completed ones
  fails. This step is the last one attempted, its failure is the one captured, and what it would
  have changed is as it was. -/
  ended :
    (failure = none ∧ done = steps ∧ attempted = steps) ∨
      ∃ step rest duty cause,
        steps = done ++ step :: rest ∧ attempted = done ++ [step] ∧
          dutyOf? step = some duty ∧
          (Work.call duty.callback).Performs ([] : List (Activity κ τ)) (.error cause) ∧
          failure = some (duty.error cause) ∧ step.IsUndone after
  /-- Those states are active that were active and have not been left, and those that have been
  entered. -/
  isActive_iff (state : Nat) :
    after.isActive state = true ↔
      (before.isActive state = true ∧ .exit state ∉ done) ∨ .enter state ∈ done

/-- The steps that are attempted are the first ones. -/
theorem CarriesOut.attempted_isPrefix
    {dutyOf? : Step → Option (Duty κ τ ω)}
    {before after : Configuration}
    {steps attempted done : List Step}
    {failure : Option StepError}
    (carriesOut : CarriesOut dutyOf? before after steps attempted done failure) :
    attempted <+: steps := by
  rcases carriesOut.ended with ⟨_, _, rfl⟩ | ⟨step, rest, _, _, rfl, rfl, _⟩
  · exact List.prefix_rfl
  · exact ⟨rest, by simp⟩

/-- The steps that some activities attempted, in order. -/
def attemptedSteps (activities : List (Activity κ τ)) : List Step :=
  activities.filterMap Activity.attemptedStep?

/-- Where nothing is attempted any more no more steps come about. -/
theorem steps_append_of_missed
    (earlier : List (Activity κ τ))
    {later : List (Activity κ τ)}
    (missed : ∀ activity ∈ later, activity.attemptedStep? = none) :
    completedSteps (earlier ++ later) = completedSteps earlier ∧
      attemptedSteps (earlier ++ later) = attemptedSteps earlier := by
  constructor
  · rw [completedSteps_append, List.append_right_eq_self, completedSteps,
      List.filterMap_eq_nil_iff]
    exact fun activity member => Activity.completedStep?_of_attemptedStep? (missed activity member)
  · rw [attemptedSteps, attemptedSteps, List.filterMap_append, List.append_right_eq_self,
      List.filterMap_eq_nil_iff]
    exact missed

/-- Completed steps were completed and attempted. -/
theorem steps_map_completed (steps : List Step) :
    completedSteps (steps.map .completed : List (Activity κ τ)) = steps ∧
      attemptedSteps (steps.map .completed : List (Activity κ τ)) = steps := by
  simp [completedSteps, attemptedSteps, List.filterMap_map, Function.comp_def,
    Activity.completedStep?, Activity.attemptedStep?]

namespace Work

/-- Taking steps carries them out in turn. -/
theorem carriesOut_of_performs_takeSteps
    {attempt : Step → Work κ τ ω (Except StepError Unit)}
    {dutyOf? : Step → Option (Duty κ τ ω)}
    (serves : ∀ step, (attempt step).recorded = serve (dutyOf? step))
    (missed : ∀ step duty, dutyOf? step = some duty →
      ∀ cause, ∀ activity ∈ duty.report cause, activity.attemptedStep? = none)
    {graph : Graph κ}
    {configuration reached : Configuration}
    (flags_size : configuration.flags.size = graph.size)
    {steps : List Step}
    (sound : SoundSteps graph configuration steps)
    (exitsFirst : ExitsFirst steps)
    {deeds : List (Activity κ τ)}
    {failure : Option StepError}
    (performs : (takeSteps attempt steps configuration).Performs deeds (failure, reached)) :
    CarriesOut dutyOf? configuration reached steps (attemptedSteps deeds) (completedSteps deeds)
      failure := by
  rw [← performs_recorded_iff, recorded_takeSteps serves] at performs
  simp only [performs_bind_iff, performs_done_iff] at performs
  obtain ⟨outcome, _, _, _, called, _, concluded_eq⟩ := performs
  rcases performs_callInTurn called with
    ⟨rfl, succeed⟩ | ⟨done, step, rest, duty, cause, rfl, steps_eq, succeed, due, failed⟩
  · cases concluded_eq
    obtain ⟨completed_eq, attempted_eq⟩ := steps_map_completed (κ := κ) (τ := τ) steps
    rw [completed_eq, attempted_eq]
    exact ⟨succeed, .inl ⟨rfl, rfl, rfl⟩, fun _ => sound.isActive_after_iff flags_size exitsFirst⟩
  · cases concluded_eq
    obtain ⟨completed_done, attempted_done⟩ := steps_map_completed (κ := κ) (τ := τ) done
    obtain ⟨completed_told, attempted_told⟩ := steps_append_of_missed
      (done.map .completed) (missed step duty due cause)
    have completed_eq : completedSteps
        (done.map .completed ++ duty.report cause ++ [.failed step (duty.error cause)]) =
          done := by
      rw [completedSteps_append, completed_told, completed_done]
      exact List.append_nil _
    have attempted_eq : attemptedSteps
        (done.map .completed ++ duty.report cause ++ [.failed step (duty.error cause)]) =
          done ++ [step] := by
      rw [attemptedSteps] at attempted_told ⊢
      rw [List.filterMap_append, attempted_told]
      exact congrArg (· ++ [step]) attempted_done
    rw [List.nil_append, completed_eq, attempted_eq]
    rw [steps_eq] at sound exitsFirst
    exact {
      succeed := succeed
      ended := .inr ⟨step, rest, duty, cause, steps_eq, rfl, due, failed, rfl,
        sound.rest.1.isUndone⟩
      isActive_iff := fun _ =>
        (sound.beginning (List.prefix_append _ _)).isActive_after_iff flags_size
          (exitsFirst.sublist (List.sublist_append_left _ _)) }

end Work

/-! ## Events -/

section Events

variable [StateKey κ] [Inspect τ]

/-- What is noted at an event about steps is noted while they are taken. -/
theorem Account.filterMap_chapter
    {β : Type}
    {look : Activity κ τ → Option β}
    (blind : ∀ activity : Activity κ τ, activity.attemptedStep? = none → look activity = none)
    (definition : Definition κ τ ω)
    (account : Account κ τ ω) :
    (account.chapter definition).filterMap look = account.steps.filterMap look := by
  have nothingSelected : (Work.selecting account.answers account.chosen).filterMap look = [] := by
    rw [List.filterMap_eq_nil_iff]
    intro activity member
    rcases Work.mem_selecting member with ⟨_, _, rfl⟩ | ⟨_, rfl⟩
    · exact blind _ rfl
    · exact blind _ rfl
  rw [chapter, List.filterMap_cons_none (blind _ rfl),
    filterMap_deeds_of_blind (fun _ _ => blind _ rfl) (fun _ => blind _ rfl), nothingSelected,
    List.nil_append]

variable [DecidableEq κ]

/-- The transition selected for an event is carried out up to its first failure. -/
structure Account.IsCarriedOut
    (definition : Definition κ τ ω)
    (account : Account κ τ ω)
    (entry : Entry κ τ ω) : Prop where
  /-- What is noted and reached comes of carrying out the transition. -/
  executes :
    (Work.execute definition entry account.event account.before.configuration).Performs
      account.steps (account.failure, (account.after definition).configuration)
  /-- The steps are carried out in turn. -/
  carriesOut :
    CarriesOut (definition.dutyOf? entry account.event) account.before.configuration
      (account.after definition).configuration
      (Definition.stepsOf entry (definition.planOf? account.before.configuration entry))
      (attemptedSteps (account.chapter definition)) (completedSteps (account.chapter definition))
      account.failure
  /-- The callbacks that run are the first ones of the transition. -/
  ran_isPrefix :
    (attemptedSteps (account.chapter definition)).filterMap
        (fun step => (definition.dutyOf? entry account.event step).map Duty.callback) <+:
      definition.callbacksOf entry account.event
        (definition.planOf? account.before.configuration entry)
  /-- Beside the faults of guards the failure of the step is the only one that is captured. -/
  captured :
    (account.context definition).errors.filter (fun error => !error.isGuardFault) =
      account.failure.toList

omit [StateKey κ] [Inspect τ] [DecidableEq κ] in
/-- A transition leaves states before it enters others. -/
theorem Definition.exitsFirst_stepsOf (entry : Entry κ τ ω) (plan : Option Plan) :
    ExitsFirst (stepsOf entry plan) := by
  cases plan with
  | none =>
      simpa [stepsOf, actionSteps] using
        exitsFirst_plan [] (List.range entry.transition.actions.length) []
  | some plan => exact exitsFirst_plan _ _ _

variable {definition : Definition κ τ ω}

/-- Nothing is told of a failed step before the end of the event. -/
theorem Definition.report_eq_nil
    {entry : Entry κ τ ω}
    {event : Event τ}
    {step : Step}
    {duty : Duty κ τ ω}
    (due : definition.dutyOf? entry event step = some duty)
    (cause : Failure) :
    duty.report cause = [] := by
  cases step <;> obtain ⟨_, _, rfl⟩ := Option.map_eq_some_iff.mp due <;> rfl

/-- Carrying out a transition takes its steps in turn. -/
theorem Work.carriesOut_of_performs_execute
    {entry : Entry κ τ ω}
    {event : Event τ}
    {configuration reached : Configuration}
    (flags_size : configuration.flags.size = definition.graph.size)
    (sound : SoundSteps definition.graph configuration
      (Definition.stepsOf entry (definition.planOf? configuration entry)))
    {deeds : List (Activity κ τ)}
    {failure : Option StepError}
    (performs : (execute definition entry event configuration).Performs deeds
      (failure, reached)) :
    CarriesOut (definition.dutyOf? entry event) configuration reached
      (Definition.stepsOf entry (definition.planOf? configuration entry)) (attemptedSteps deeds)
      (completedSteps deeds) failure := by
  have missed : ∀ step duty, definition.dutyOf? entry event step = some duty →
      ∀ cause, ∀ activity ∈ duty.report cause, activity.attemptedStep? = none := by
    intro step duty due cause
    simp [Definition.report_eq_nil due cause]
  have exitsFirst := Definition.exitsFirst_stepsOf entry (definition.planOf? configuration entry)
  unfold execute at performs
  cases planned : definition.planOf? configuration entry with
  | none =>
      simp only [planned] at performs sound exitsFirst
      exact carriesOut_of_performs_takeSteps (recorded_attempt definition entry event) missed
        flags_size sound exitsFirst performs
  | some plan =>
      simp only [planned, performs_note_iff] at performs sound exitsFirst
      obtain ⟨steps, rfl, performs⟩ := performs
      have carriesOut := carriesOut_of_performs_takeSteps
        (recorded_attempt definition entry event) missed flags_size sound exitsFirst performs
      exact carriesOut

/-- What is selected for an event is carried out. -/
theorem Account.IsRight.isCarriedOut
    [DecidableEq τ]
    (wellFormed : definition.IsWellFormed)
    {account : Account κ τ ω}
    (isRight : account.IsRight definition)
    (executes : account.Executes definition)
    (consistent : account.before.configuration.IsConsistent definition.graph)
    {entry : Entry κ τ ω}
    (chosen : account.chosen = some entry) :
    account.IsCarriedOut definition entry := by
  obtain ⟨listed, active⟩ := isRight.source_active wellFormed consistent chosen
  have completed_eq : completedSteps (account.chapter definition) =
      completedSteps account.steps :=
    account.filterMap_chapter (fun _ => Activity.completedStep?_of_attemptedStep?) definition
  have attempted_eq : attemptedSteps (account.chapter definition) =
      attemptedSteps account.steps :=
    account.filterMap_chapter (fun _ missed => missed) definition
  have carriesOut := Work.carriesOut_of_performs_execute consistent.flags_size
    (Definition.soundSteps_stepsOf wellFormed consistent listed active) (executes entry chosen)
  rw [← completed_eq, ← attempted_eq] at carriesOut
  exact {
    executes := executes entry chosen
    carriesOut := carriesOut
    ran_isPrefix := by
      rw [← definition.filterMap_callback_stepsOf]
      exact carriesOut.attempted_isPrefix.filterMap _
    captured := by
      have noFaults : account.faults.filter (fun error => !error.isGuardFault) = [] := by
        rw [List.filter_eq_nil_iff]
        intro fault member
        simp [isRight.isGuardFault_of_mem_faults member]
      rw [errors_context, errors, List.filter_append, noFaults, List.nil_append,
        List.filter_eq_self]
      intro error failed
      simp [isRight.isGuardFault_of_failure (Option.mem_toList.mp failed)] }

end Events
end Statechart
