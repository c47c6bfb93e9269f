import Statechart.Machine.Execution
import Statechart.Proofs.Configuration.Consistency

/-!
# The steps that a session records

The journal of a session records every step that a machine has completed. Callbacks and
observers may queue events, look at the machine and write log records, but they complete
no step, publish nothing and do not change the phase of the machine.
-/

namespace Statechart

variable {κ τ ω α : Type}

/-- The step that an activity completed. -/
def Activity.completedStep? : Activity κ τ → Option Step
  | .completed step => some step
  | _ => none

/-- Whether a step failed in an activity. -/
def Activity.isFailure : Activity κ τ → Bool
  | .failed .. => true
  | _ => false

/-- The steps that some activities completed, in order. -/
def completedSteps (activities : List (Activity κ τ)) : List Step :=
  activities.filterMap Activity.completedStep?

theorem completedSteps_append (first second : List (Activity κ τ)) :
    completedSteps (first ++ second) = completedSteps first ++ completedSteps second :=
  List.filterMap_append

/-- The steps of a beginning are the beginning of the steps. -/
theorem completedSteps_isPrefix
    {earlier activities : List (Activity κ τ)}
    (beginning : earlier <+: activities) :
    completedSteps earlier <+: completedSteps activities := by
  obtain ⟨later, rfl⟩ := beginning
  rw [completedSteps_append]
  exact List.prefix_append _ _

namespace Session

/-- The steps that a machine has completed, the earliest first. -/
def completedSteps (session : Session κ τ ω) : List Step :=
  Statechart.completedSteps session.activities

theorem completedSteps_note (session : Session κ τ ω) (activity : Activity κ τ) :
    (session.note activity).completedSteps =
      session.completedSteps ++ activity.completedStep?.toList := by
  rw [completedSteps, activities, note, List.reverse_cons, completedSteps_append]
  rfl

/-- From one session to a later one some steps were completed, while the phase and the
published snapshot stayed. -/
structure Passes
    (before : Session κ τ ω)
    (done : List Step)
    (after : Session κ τ ω) : Prop where
  /-- The phase stays. -/
  phase_eq : after.phase = before.phase
  /-- Nothing is published. -/
  published_eq : after.published = before.published
  /-- The steps are recorded behind those completed before. -/
  completed_eq : after.completedSteps = before.completedSteps ++ done
  /-- The journal only grows. -/
  journal_kept : before.journal <:+ after.journal

namespace Passes

theorem refl (session : Session κ τ ω) : session.Passes [] session where
  phase_eq := rfl
  published_eq := rfl
  completed_eq := (List.append_nil _).symm
  journal_kept := List.suffix_refl _

theorem trans
    {first second third : Session κ τ ω}
    {earlier later : List Step}
    (before : first.Passes earlier second)
    (after : second.Passes later third) :
    first.Passes (earlier ++ later) third where
  phase_eq := after.phase_eq.trans before.phase_eq
  published_eq := after.published_eq.trans before.published_eq
  completed_eq := by
    rw [after.completed_eq, before.completed_eq, List.append_assoc]
  journal_kept := before.journal_kept.trans after.journal_kept

/-- After nothing was done, what is done is all that was done. -/
theorem after_nothing
    {first second third : Session κ τ ω}
    {done : List Step}
    (before : first.Passes [] second)
    (after : second.Passes done third) :
    first.Passes done third := by
  simpa using before.trans after

/-- Before nothing more is done, what was done is all that is done. -/
theorem then_nothing
    {first second third : Session κ τ ω}
    {done : List Step}
    (before : first.Passes done second)
    (after : second.Passes [] third) :
    first.Passes done third := by
  simpa using before.trans after

end Passes

/-- No step has failed according to the journal. -/
def IsUnfailing (session : Session κ τ ω) : Prop :=
  ∀ activity ∈ session.journal, activity.isFailure = false

instance (session : Session κ τ ω) : Decidable session.IsUnfailing :=
  inferInstanceAs (Decidable (∀ activity ∈ session.journal, activity.isFailure = false))

/-- If no step has failed, none had failed before. -/
theorem IsUnfailing.of_suffix
    {before after : Session κ τ ω}
    (unfailing : after.IsUnfailing)
    (kept : before.journal <:+ after.journal) :
    before.IsUnfailing :=
  fun activity recorded => unfailing activity (kept.subset recorded)

/-- What is kept outside the journal does not matter. -/
theorem passes_of_eq
    {before after : Session κ τ ω}
    (phase_eq : after.phase = before.phase)
    (published_eq : after.published = before.published)
    (journal_eq : after.journal = before.journal) :
    before.Passes [] after where
  phase_eq := phase_eq
  published_eq := published_eq
  completed_eq := by
    rw [completedSteps, activities, journal_eq, List.append_nil]
    rfl
  journal_kept := by simp [journal_eq]

/-- Adding to the journal completes the step of the activity, if there is one. -/
theorem passes_note (session : Session κ τ ω) (activity : Activity κ τ) :
    session.Passes activity.completedStep?.toList (session.note activity) where
  phase_eq := rfl
  published_eq := rfl
  completed_eq := completedSteps_note session activity
  journal_kept := List.suffix_cons _ _

/-- Adding to the journal what is no step completes no step. -/
theorem passes_note_of_none
    (session : Session κ τ ω)
    {activity : Activity κ τ}
    (noStep : activity.completedStep? = none) :
    session.Passes [] (session.note activity) := by
  have noted := session.passes_note activity
  rwa [noStep] at noted

/-- Queueing an event completes no step. -/
theorem passes_fire (session : Session κ τ ω) (event : Event τ) :
    session.Passes [] (session.fire event).2 := by
  unfold fire
  split
  · exact Passes.refl session
  · exact Passes.refl session
  · simp only
    split
    · exact ⟨rfl, rfl, completedSteps_note session _, List.suffix_cons _ _⟩
    · exact passes_note_of_none session rfl

end Session

/-- A program completes no step. -/
theorem Program.passes_run
    (program : Program κ τ α)
    (session : Session κ τ ω) :
    session.Passes [] (program.run session).2 := by
  induction program generalizing session with
  | done result => exact Session.Passes.refl session
  | fire event next inductionHypothesis =>
      exact (session.passes_fire event).after_nothing (inductionHypothesis _ _)
  | look next inductionHypothesis =>
      exact (session.passes_note_of_none rfl).after_nothing (inductionHypothesis _ _)
  | log entry next inductionHypothesis =>
      exact (session.passes_note_of_none rfl).after_nothing (inductionHypothesis _)

namespace Session

/-- A callback completes no step. -/
theorem passes_call (session : Session κ τ ω) (callback : Callback κ τ ω α) :
    session.Passes [] (session.call callback).2 := by
  have ran := (callback session.world).passes_run session
  exact ⟨ran.phase_eq, ran.published_eq, ran.completed_eq, ran.journal_kept⟩

theorem passes_notifyFrom
    (notification : Notification κ τ)
    (number : Nat)
    (observers : List (Observer κ τ ω))
    (session : Session κ τ ω) :
    session.Passes [] (notifyFrom notification number observers session) := by
  induction observers generalizing number session with
  | nil => exact Passes.refl session
  | cons observer observers inductionHypothesis =>
      have called := (session.passes_note_of_none
        (rfl : (Activity.notified number notification).completedStep? = none)).after_nothing
          (passes_call _ (observer notification))
      rw [notifyFrom]
      refine Passes.after_nothing ?_ (inductionHypothesis _ _)
      split
      · exact called
      · exact called.then_nothing (passes_note_of_none _ rfl)

/-- Notifying observers completes no step. -/
theorem passes_notify
    (session : Session κ τ ω)
    (observers : List (Observer κ τ ω))
    (notification : Notification κ τ) :
    session.Passes [] (session.notify observers notification) :=
  passes_notifyFrom notification 0 observers session

end Session

/-! ## Steps -/

/-- An attempt at a step is an attempt by a callback: it completes no step by itself. -/
def IsAttempt (attempt : Session κ τ ω → Step → Except StepError Unit × Session κ τ ω) :
    Prop :=
  ∀ (session : Session κ τ ω) (step : Step), session.Passes [] (attempt session step).2

/-- A run of steps completes a beginning of them and carries it out. Without a failure it
completes them all, and a failure is recorded. -/
structure Progress.Completes
    (progress : Progress κ τ ω)
    (steps : List Step)
    (configuration : Configuration)
    (session : Session κ τ ω)
    (done : List Step) : Prop where
  /-- The completed steps are the first ones. -/
  beginning : done <+: steps
  /-- The configuration is that after the completed steps. -/
  configuration_eq : progress.configuration = configuration.after done
  /-- The completed steps are recorded. -/
  passes : session.Passes done progress.session
  /-- Without a failure every step is completed. -/
  all_of_success : progress.failure = none → done = steps
  /-- A failure is recorded. -/
  failure_recorded {error : StepError} :
    progress.failure = some error → ¬ progress.session.IsUnfailing

/-- Taking steps completes a beginning of them. -/
theorem takeSteps_completes
    {attempt : Session κ τ ω → Step → Except StepError Unit × Session κ τ ω}
    (isAttempt : IsAttempt attempt)
    (steps : List Step)
    (configuration : Configuration)
    (session : Session κ τ ω) :
    ∃ done, (takeSteps attempt steps configuration session).Completes steps configuration
      session done := by
  induction steps generalizing configuration session with
  | nil =>
      exact ⟨[], List.prefix_refl [], rfl, Session.Passes.refl session, fun _ => rfl,
        fun failed => by contradiction⟩
  | cons step steps inductionHypothesis =>
      have attempted := isAttempt session step
      rw [takeSteps]
      split
      · rename_i error after outcome
        rw [outcome] at attempted
        refine ⟨[], List.nil_prefix, rfl,
          attempted.then_nothing (Session.passes_note_of_none _ rfl), ?_, ?_⟩
        · exact fun success => by contradiction
        · exact fun _ unfailing => absurd (unfailing _ List.mem_cons_self) (by
            simp [Activity.isFailure])
      · rename_i after outcome
        rw [outcome] at attempted
        obtain ⟨done, completes⟩ := inductionHypothesis (step.apply configuration)
          (after.note (.completed step))
        refine ⟨step :: done, ?_, completes.configuration_eq, ?_, ?_,
          completes.failure_recorded⟩
        · exact (List.prefix_append_right_inj [step]).mpr completes.beginning
        · exact attempted.after_nothing
            ((Session.passes_note after (.completed step)).trans completes.passes)
        · exact fun success => congrArg (step :: ·) (completes.all_of_success success)

namespace Definition

theorem passes_runStateAction
    (session : Session κ τ ω)
    (action : Option (StateAction κ τ ω)) :
    session.Passes [] (runStateAction session action).2 := by
  cases action with
  | none => exact Session.Passes.refl session
  | some action => exact session.passes_call action.invoke

theorem passes_consult
    (session : Session κ τ ω)
    (entry : Entry κ τ ω)
    (event : Event τ) :
    session.Passes [] (consult session entry event).2 := by
  unfold consult
  split
  · exact Session.Passes.refl session
  · exact (session.passes_call _).then_nothing (Session.passes_note_of_none _ rfl)

variable [StateKey κ] [Inspect τ]

/-- What belongs to a step completes no step by itself. -/
theorem isAttempt_attempt
    [DecidableEq κ]
    (definition : Definition κ τ ω)
    (source : Nat)
    (actions : List (Action κ τ ω))
    (event : Event τ) :
    IsAttempt (definition.attempt source actions event) := by
  intro session step
  cases step with
  | exit state => exact passes_runStateAction session (definition.exitAction? state)
  | act position =>
      rw [attempt]
      split
      · exact Session.Passes.refl session
      · exact session.passes_call _
  | enter state => exact passes_runStateAction session (definition.entryAction? state)

/-- Choosing an entry completes no step. -/
theorem passes_choose
    (definition : Definition κ τ ω)
    (event : Event τ)
    (entries : List (Entry κ τ ω))
    (session : Session κ τ ω) :
    session.Passes [] (definition.choose event entries session).2.2 := by
  induction entries generalizing session with
  | nil => exact Session.Passes.refl session
  | cons entry entries inductionHypothesis =>
      have consulted := passes_consult session entry event
      rw [choose]
      split
      rename_i verdict after outcome
      rw [outcome] at consulted
      split
      · exact consulted.then_nothing (Session.passes_note_of_none _ rfl)
      · exact consulted.after_nothing (inductionHypothesis after)
      · exact consulted.after_nothing (inductionHypothesis after)

/-- The chosen entry is one of the candidates. -/
theorem mem_of_choose_eq_some
    {definition : Definition κ τ ω}
    {event : Event τ}
    {entries : List (Entry κ τ ω)}
    {session : Session κ τ ω}
    {chosen : Entry κ τ ω}
    (found : (definition.choose event entries session).1 = some chosen) :
    chosen ∈ entries := by
  induction entries generalizing session with
  | nil => contradiction
  | cons entry entries inductionHypothesis =>
      rw [choose] at found
      split at found
      split at found
      · cases found
        exact List.mem_cons_self
      · exact List.mem_cons_of_mem _ (inductionHypothesis found)
      · exact List.mem_cons_of_mem _ (inductionHypothesis found)

end Definition
end Statechart
