import Statechart.Machine.Worker
import Statechart.Proofs.Machine.Definition
import Statechart.Proofs.Machine.Session
import Statechart.Proofs.Plan.Lifecycle

/-!
# What a worker does to the configuration

Whether a worker enters the first configuration, processes an event or leaves everything
at the end, its configuration moves by sound steps, and the steps are recorded. While no
step fails, the configuration is complete after the start and stays so with every event.
-/

namespace Statechart

variable {κ τ ω : Type}

namespace Definition

/-! ## Carrying out a transition -/

section Execute

variable
  {definition : Definition κ τ ω}
  (wellFormed : definition.IsWellFormed)
  {configuration : Configuration}
  (consistent : configuration.IsConsistent definition.graph)
  {entry : Entry κ τ ω}
  (listed : entry ∈ definition.table.entries)
  (active : configuration.isActive entry.source = true)

include wellFormed consistent listed active

/-- The steps of a selected entry are sound. -/
theorem soundSteps_stepsOf :
    SoundSteps definition.graph configuration
      (stepsOf entry (definition.planOf? configuration entry)) := by
  unfold planOf?
  split
  · rename_i target _ hasTarget
    exact Plan.soundSteps_external wellFormed.forest consistent active
      (wellFormed.sameTree listed hasTarget) (List.range entry.transition.actions.length)
  · exact SoundSteps.acts _ _ _

/-- All steps of a selected entry together keep a configuration complete. -/
theorem isComplete_after_stepsOf
    (complete : configuration.IsComplete definition.graph) :
    (configuration.after (stepsOf entry (definition.planOf? configuration entry))).IsComplete
      definition.graph := by
  unfold planOf?
  split
  · rename_i target _ hasTarget
    have after_eq := Plan.after_steps
      (Plan.external definition.graph configuration entry.source target) configuration
      (List.range entry.transition.actions.length)
    rw [stepsOf, actionSteps]
    rw [Plan.steps] at after_eq
    rw [after_eq]
    exact Plan.isComplete_outcome wellFormed.forest consistent active
      (wellFormed.sameTree listed hasTarget) complete
  · rw [stepsOf, actionSteps, Configuration.after_acts]
    exact complete

end Execute

/-- Carrying out an entry completes a beginning of its steps. -/
theorem execute_completes
    [DecidableEq κ]
    [StateKey κ]
    [Inspect τ]
    (definition : Definition κ τ ω)
    (entry : Entry κ τ ω)
    (event : Event τ)
    (configuration : Configuration)
    (session : Session κ τ ω) :
    ∃ done, (definition.execute entry event configuration session).Completes
      (stepsOf entry (definition.planOf? configuration entry)) configuration session done := by
  have isAttempt :=
    definition.isAttempt_attempt entry.source entry.transition.actions event
  unfold execute
  cases definition.planOf? configuration entry with
  | none => exact takeSteps_completes isAttempt _ configuration session
  | some plan =>
      have noted := session.passes_note_of_none
        (rfl : (Activity.planned (definition.graph.keys plan.exits)
          (definition.graph.keys plan.entries) : Activity κ τ).completedStep? = none)
      obtain ⟨done, completes⟩ := takeSteps_completes isAttempt (stepsOf entry (some plan))
        configuration (session.note (.planned (definition.graph.keys plan.exits)
          (definition.graph.keys plan.entries)))
      exact ⟨done, { completes with passes := noted.after_nothing completes.passes }⟩

end Definition

namespace Worker

/-- A worker has moved by some steps: they were sound, were carried out and were recorded,
and the result was published. -/
structure Moves
    (definition : Definition κ τ ω)
    (worker : Worker κ)
    (session : Session κ τ ω)
    (done : List Step)
    (moved : Worker κ × Session κ τ ω) : Prop where
  /-- Every step was sound. -/
  sound : SoundSteps definition.graph worker.configuration done
  /-- The steps were carried out. -/
  configuration_eq : moved.1.configuration = worker.configuration.after done
  /-- The steps were recorded. -/
  completed_eq : moved.2.completedSteps = session.completedSteps ++ done
  /-- The phase stays. -/
  phase_eq : moved.2.phase = session.phase
  /-- The worker is published as it is now. -/
  published_eq : moved.2.published = moved.1.snapshot definition
  /-- The journal only grows. -/
  journal_kept : session.journal <:+ moved.2.journal

/-- A worker that has carried out steps and then publishes has moved by them. -/
theorem moves_of_publish
    {definition : Definition κ τ ω}
    {worker moved : Worker κ}
    {session between after : Session κ τ ω}
    {done : List Step}
    (sound : SoundSteps definition.graph worker.configuration done)
    (configuration_eq : moved.configuration = worker.configuration.after done)
    (passes : session.Passes done between)
    (rest : (moved.publish definition between).Passes [] after) :
    Moves definition worker session done (moved, after) where
  sound := sound
  configuration_eq := configuration_eq
  completed_eq := by
    have published : (moved.publish definition between).completedSteps =
        between.completedSteps := by
      rw [publish, Session.publish, Session.completedSteps_note]
      exact List.append_nil _
    rw [rest.completed_eq, published, passes.completed_eq, List.append_nil]
  phase_eq := rest.phase_eq.trans passes.phase_eq
  published_eq := rest.published_eq
  journal_kept := passes.journal_kept.trans
    ((List.suffix_cons _ _).trans rest.journal_kept)

/-- What a worker does after callbacks have run it does. -/
theorem Moves.of_passes
    {definition : Definition κ τ ω}
    {worker : Worker κ}
    {session between : Session κ τ ω}
    {done : List Step}
    {moved : Worker κ × Session κ τ ω}
    (before : session.Passes [] between)
    (moves : Moves definition worker between done moved) :
    Moves definition worker session done moved where
  sound := moves.sound
  configuration_eq := moves.configuration_eq
  completed_eq := by
    rw [moves.completed_eq, before.completed_eq, List.append_nil]
  phase_eq := moves.phase_eq.trans before.phase_eq
  published_eq := moves.published_eq
  journal_kept := before.journal_kept.trans moves.journal_kept

/-! ## Processing an event -/

section Process

theorem passes_reportErrors
    (definition : Definition κ τ ω)
    (context : Context κ τ)
    (session : Session κ τ ω) :
    session.Passes [] (reportErrors definition context session) := by
  unfold reportErrors
  generalize context.errors = errors
  induction errors generalizing session with
  | nil => exact Session.Passes.refl session
  | cons error errors inductionHypothesis =>
      exact (session.passes_notify _ _).after_nothing (inductionHypothesis _)

/-- Declining an event moves nothing. -/
theorem moves_decline
    (definition : Definition κ τ ω)
    (worker : Worker κ)
    (context : Context κ τ)
    (session : Session κ τ ω) :
    Moves definition worker session [] (worker.decline definition context session) := by
  refine moves_of_publish trivial rfl (Session.Passes.refl session) ?_
  exact (passes_reportErrors definition context _).then_nothing (Session.passes_notify _ _ _)

variable
  [DecidableEq κ]
  [StateKey κ]
  [Inspect τ]
  {definition : Definition κ τ ω}
  (wellFormed : definition.IsWellFormed)
  {worker : Worker κ}
  (consistent : worker.configuration.IsConsistent definition.graph)

include wellFormed consistent

/-- Following an entry moves by a beginning of its steps, and keeps a complete
configuration complete unless a step fails. -/
theorem moves_follow
    {entry : Entry κ τ ω}
    (listed : entry ∈ definition.table.entries)
    (active : worker.configuration.isActive entry.source = true)
    (context : Context κ τ)
    (session : Session κ τ ω) :
    ∃ done, Moves definition worker session done
        (worker.follow definition entry context session) ∧
      ((worker.follow definition entry context session).2.IsUnfailing →
        worker.configuration.IsComplete definition.graph →
          (worker.follow definition entry context session).1.configuration.IsComplete
            definition.graph) := by
  obtain ⟨done, completes⟩ :=
    definition.execute_completes entry context.event worker.configuration session
  have sound := (Definition.soundSteps_stepsOf wellFormed consistent listed active).beginning
    completes.beginning
  have stays := Definition.isComplete_after_stepsOf wellFormed consistent listed active
  refine ⟨done, ?_⟩
  unfold follow
  simp only [Context.select]
  generalize definition.execute entry context.event worker.configuration session = progress
    at completes ⊢
  rcases progress with ⟨failure, configuration, after⟩
  cases failure with
  | none =>
      refine ⟨moves_of_publish sound completes.configuration_eq completes.passes ?_, ?_⟩
      · exact (passes_reportErrors definition _ _).then_nothing (Session.passes_notify _ _ _)
      · intro _ complete
        have finished := stays complete
        rw [← completes.all_of_success rfl, ← completes.configuration_eq] at finished
        exact finished
  | some error =>
      refine ⟨moves_of_publish sound completes.configuration_eq completes.passes
        (passes_reportErrors definition _ _), fun unfailing _ => ?_⟩
      have published := unfailing.of_suffix (passes_reportErrors definition _ _).journal_kept
      exact absurd (published.of_suffix (List.suffix_cons _ _)) (completes.failure_recorded rfl)

/-- Processing an event moves by sound steps, and keeps a complete configuration complete
unless a step fails. -/
theorem moves_process
    [DecidableEq τ]
    (event : Event τ)
    (session : Session κ τ ω) :
    ∃ done, Moves definition worker session done
        (worker.process definition event session) ∧
      ((worker.process definition event session).2.IsUnfailing →
        worker.configuration.IsComplete definition.graph →
          (worker.process definition event session).1.configuration.IsComplete
            definition.graph) := by
  rcases processed_eq : worker.process definition event session with ⟨processed, after⟩
  unfold process at processed_eq
  extract_lets leaves context begun candidates at processed_eq
  have passes_begun : session.Passes [] begun :=
    (session.passes_note_of_none rfl).then_nothing (Session.passes_notify _ _ _)
  have passes_chosen :=
    passes_begun.then_nothing (definition.passes_choose event candidates begun)
  rcases choice : definition.choose event candidates begun with ⟨chosen, faults, between⟩
  rw [choice] at processed_eq passes_chosen
  cases chosen with
  | none =>
      have moves := moves_decline definition worker (context.fail faults) between
      simp only at processed_eq
      rw [processed_eq] at moves
      refine ⟨[], moves.of_passes passes_chosen, fun _ complete => ?_⟩
      rw [moves.configuration_eq]
      exact complete
  | some entry =>
      have member : entry ∈ candidates :=
        Definition.mem_of_choose_eq_some (congrArg Prod.fst choice)
      obtain ⟨listed, active⟩ := Definition.mem_candidatesFrom wellFormed consistent member
      obtain ⟨done, moves, stays⟩ := moves_follow wellFormed consistent listed active
        (context.fail faults) between
      simp only at processed_eq
      rw [processed_eq] at moves stays
      exact ⟨done, moves.of_passes passes_chosen, stays⟩

end Process

/-! ## The start and the end -/

section Lifecycle

variable [DecidableEq κ] [StateKey κ]

/-- Entering the first configuration moves by a beginning of the first plan. Unless a step
fails, the configuration is complete. -/
theorem moves_enterInitial
    {definition : Definition κ τ ω}
    (wellFormed : definition.IsWellFormed)
    {worker : Worker κ}
    (nothing : worker.configuration = Configuration.empty definition.graph.size)
    (session : Session κ τ ω) :
    ∃ done, Moves definition worker session done
        ((worker.enterInitial definition session).1,
          (worker.enterInitial definition session).1.publish definition
            (worker.enterInitial definition session).2) ∧
      ((worker.enterInitial definition session).2.IsUnfailing →
          (worker.enterInitial definition session).1.configuration.IsComplete
            definition.graph) := by
  rcases entered_eq : worker.enterInitial definition session with ⟨entered, after⟩
  unfold enterInitial at entered_eq
  extract_lets attempt progress moved active final at entered_eq
  have isAttempt : IsAttempt attempt := by
    intro session step
    cases step with
    | exit state => exact Session.Passes.refl session
    | act position => exact Session.Passes.refl session
    | enter state =>
        have ran := Definition.passes_runStateAction session (definition.entryAction? state)
        simp only [attempt]
        split
        · exact ran
        · exact ran.then_nothing (Session.passes_note_of_none _ rfl)
  obtain ⟨done, completes⟩ := takeSteps_completes isAttempt
    ((Plan.initial definition.graph).map .enter) worker.configuration session
  have completes : progress.Completes _ _ _ done := completes
  have sound : SoundSteps definition.graph worker.configuration done := by
    rw [nothing]
    exact (Plan.soundSteps_initial wellFormed.forest).beginning completes.beginning
  have passes : progress.session.Passes [] final := by
    simp only [final]
    split
    · exact Session.passes_notify _ _ _
    · exact Session.passes_note_of_none _ rfl
  obtain ⟨rfl, rfl⟩ := Prod.mk.inj entered_eq
  refine ⟨done, moves_of_publish sound completes.configuration_eq
    (completes.passes.then_nothing passes) (Session.Passes.refl _), fun unfailing => ?_⟩
  cases failed : progress.failure with
  | none =>
      have finished := Plan.isComplete_after_initial wellFormed.forest
      rw [← completes.all_of_success failed, ← nothing, ← completes.configuration_eq]
        at finished
      exact finished
  | some error =>
      exact absurd (unfailing.of_suffix passes.journal_kept)
        (completes.failure_recorded failed)

/-- Leaving states one by one leaves all of them, whatever their exit actions do. -/
theorem leaveAll_passes
    (definition : Definition κ τ ω)
    (states : List Nat)
    (worker : Worker κ)
    (session : Session κ τ ω) :
    (worker.leaveAll definition states session).1.configuration =
        worker.configuration.after (states.map .exit) ∧
      session.Passes (states.map .exit) (worker.leaveAll definition states session).2 := by
  induction states generalizing worker session with
  | nil => exact ⟨rfl, Session.Passes.refl session⟩
  | cons state states inductionHypothesis =>
      rcases left_eq : worker.leaveAll definition (state :: states) session with ⟨left, after⟩
      have leaves_rest {reported : Session κ τ ω}
          (passes : session.Passes [] reported)
          (rest_eq : leaveAll definition states
            { worker with configuration := worker.configuration.deactivate state }
            (reported.note (.completed (.exit state))) = (left, after)) :
          left.configuration = worker.configuration.after ((state :: states).map .exit) ∧
            session.Passes ((state :: states).map .exit) after := by
        obtain ⟨configuration_eq, rest⟩ := inductionHypothesis
          { worker with configuration := worker.configuration.deactivate state }
          (reported.note (.completed (.exit state)))
        rw [rest_eq] at configuration_eq rest
        exact ⟨configuration_eq,
          passes.after_nothing ((reported.passes_note (.completed (.exit state))).trans rest)⟩
      have ran := Definition.passes_runStateAction session (definition.exitAction? state)
      rw [leaveAll] at left_eq
      rcases outcome : Definition.runStateAction session (definition.exitAction? state) with
        ⟨result, between⟩
      rw [outcome] at left_eq ran
      cases result with
      | ok _ => exact leaves_rest ran left_eq
      | error failure =>
          refine leaves_rest (ran.then_nothing ?_) left_eq
          exact (Session.passes_note_of_none _ rfl).then_nothing (Session.passes_notify _ _ _)

/-- Leaving everything at the end moves by the last plan. -/
theorem moves_shutdown
    {definition : Definition κ τ ω}
    (wellFormed : definition.IsWellFormed)
    {worker : Worker κ}
    (consistent : worker.configuration.IsConsistent definition.graph)
    (session : Session κ τ ω) :
    Moves definition worker session
      ((Plan.shutdown definition.graph worker.configuration).map .exit)
      (worker.shutdown definition session) := by
  obtain ⟨configuration_eq, passes⟩ := leaveAll_passes definition
    (Plan.shutdown definition.graph worker.configuration) worker session
  exact moves_of_publish (Plan.soundSteps_shutdown wellFormed.forest consistent)
    configuration_eq passes (Session.Passes.refl _)

end Lifecycle

end Worker
end Statechart
