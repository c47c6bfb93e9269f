import Statechart.Proofs.Machine.Unfolding
import Statechart.Proofs.Machine.Worker

/-!
# How the configuration evolves

The journal tells of every step that was attempted and of every snapshot that was published.
Read from the front, it leads from the configuration at the beginning to the one at each
moment. Every step is attempted in a configuration in which it is sound, whether it is
completed there or fails, and every snapshot shows the leaves of the configuration in which
it is published.
-/

namespace Statechart

variable {κ τ ω : Type}

namespace Activity

/-- The step that was attempted in an activity, whether it was completed or has failed. -/
def attemptedStep? : Activity κ τ → Option Step
  | .completed step => some step
  | .failed step _ => some step
  | _ => none

/-- The activity can take place in a configuration. -/
structure Suits
    (graph : Graph κ)
    (configuration : Configuration)
    (activity : Activity κ τ) : Prop where
  /-- A step that is attempted is sound. -/
  sound {step : Step} : activity.attemptedStep? = some step → step.IsSound graph configuration
  /-- A snapshot shows the active leaves. -/
  shown {snapshot : Snapshot κ} :
    activity.published? = some snapshot →
      snapshot.active = graph.keys (configuration.leaves graph)

/-- No step is attempted, and nothing is published. -/
def IsQuiet (activity : Activity κ τ) : Prop :=
  activity.attemptedStep? = none ∧ activity.published? = none

/-- A quiet activity can take place in any configuration. -/
theorem IsQuiet.suits
    {activity : Activity κ τ}
    (quiet : activity.IsQuiet)
    (graph : Graph κ)
    (configuration : Configuration) :
    activity.Suits graph configuration where
  sound attempted := by simp [quiet.1] at attempted
  shown published := by simp [quiet.2] at published

/-- A completed step was attempted. -/
theorem attemptedStep?_of_completedStep?
    {activity : Activity κ τ}
    {step : Step}
    (completed : activity.completedStep? = some step) :
    activity.attemptedStep? = some step := by
  cases activity <;> first | exact completed | contradiction

/-- Where no step was attempted none was completed. -/
theorem completedStep?_of_attemptedStep?
    {activity : Activity κ τ}
    (missed : activity.attemptedStep? = none) :
    activity.completedStep? = none := by
  cases activity <;> first | rfl | contradiction

/-- A quiet activity completes no step. -/
theorem IsQuiet.completedStep?_eq
    {activity : Activity κ τ}
    (quiet : activity.IsQuiet) :
    activity.completedStep? = none :=
  completedStep?_of_attemptedStep? quiet.1

/-- An attempt at a step can take place where the step is sound. -/
theorem suits_of_attemptedStep?
    {graph : Graph κ}
    {configuration : Configuration}
    {activity : Activity κ τ}
    {step : Step}
    (attempted : activity.attemptedStep? = some step)
    (sound : step.IsSound graph configuration) :
    activity.Suits graph configuration where
  sound again := by
    rw [attempted] at again
    exact Option.some.inj again ▸ sound
  shown published := by cases activity <;> simp [attemptedStep?, published?] at attempted published

/-- A worker can be shown in its own configuration. -/
theorem suits_published (definition : Definition κ τ ω) (worker : Worker κ) :
    (published (worker.snapshot definition) : Activity κ τ).Suits definition.graph
      worker.configuration where
  sound attempted := by simp [attemptedStep?] at attempted
  shown published := by
    cases published
    rfl

/-- What is no deed of the worker is quiet. -/
theorem deed?_cases (activity : Activity κ τ) :
    (activity.deed? = none ∧ activity.IsQuiet) ∨ activity.deed? = some activity := by
  cases activity <;> first | exact .inr rfl | exact .inl ⟨rfl, rfl, rfl⟩

/-- Telling observers is quiet. -/
theorem isQuiet_of_mem_told
    {observers : List (Observer κ τ ω)}
    {notification : Notification κ τ}
    {deed : Activity κ τ}
    (member : deed ∈ told observers notification) :
    deed.IsQuiet := by
  obtain ⟨observer, _, rfl⟩ := List.mem_map.mp member
  exact ⟨rfl, rfl⟩

end Activity

namespace Configuration

variable
  {graph : Graph κ}
  {configuration between after : Configuration}
  {activities later : List (Activity κ τ)}

/-- From a configuration some activities lead to another one. Each of them can take place in
the configuration that the steps completed before have led to. -/
inductive Evolves (graph : Graph κ) :
    Configuration → List (Activity κ τ) → Configuration → Prop
  /-- Nothing has happened. -/
  | nothing (configuration : Configuration) : Evolves graph configuration [] configuration
  /-- One more thing happened first. -/
  | activity
      {configuration after : Configuration}
      {activity : Activity κ τ}
      {activities : List (Activity κ τ)}
      (suits : activity.Suits graph configuration)
      (rest : Evolves graph (configuration.after activity.completedStep?.toList) activities
        after) :
      Evolves graph configuration (activity :: activities) after

namespace Evolves

/-- What happens first and what happens afterwards lead on together. -/
theorem trans
    (first : Evolves graph configuration activities between)
    (second : Evolves graph between later after) :
    Evolves graph configuration (activities ++ later) after := by
  induction first with
  | nothing => exact second
  | activity suits _ inductionHypothesis => exact .activity suits (inductionHypothesis second)

/-- Where nothing but quiet things happen, the configuration stays. -/
theorem of_quiet
    (quiet : ∀ activity ∈ activities, activity.IsQuiet)
    (configuration : Configuration) :
    Evolves graph configuration activities configuration := by
  induction activities with
  | nil => exact .nothing configuration
  | cons activity activities inductionHypothesis =>
      have first := quiet activity List.mem_cons_self
      refine .activity (first.suits graph configuration) ?_
      rw [first.completedStep?_eq]
      exact inductionHypothesis fun other member => quiet other (List.mem_cons_of_mem _ member)

/-- The configuration that is reached is given by the completed steps. -/
theorem after_eq (evolves : Evolves graph configuration activities after) :
    after = configuration.after (completedSteps activities) := by
  induction evolves with
  | nothing => rfl
  | @activity configuration _ activity activities _ _ inductionHypothesis =>
      rw [inductionHypothesis, ← Configuration.after_append, ← List.singleton_append,
        completedSteps_append, completedSteps, completedSteps]
      congr 2

/-- On the way there is a configuration at every moment. -/
theorem of_append
    (evolves : Evolves graph configuration (activities ++ later) after) :
    ∃ between, Evolves graph configuration activities between ∧
      Evolves graph between later after := by
  induction activities generalizing configuration with
  | nil => exact ⟨configuration, .nothing configuration, evolves⟩
  | cons activity activities inductionHypothesis =>
      cases evolves with
      | activity suits rest =>
          obtain ⟨between, first, second⟩ := inductionHypothesis rest
          exact ⟨between, .activity suits first, second⟩

/-- A configuration stays consistent. -/
theorem isConsistent
    (evolves : Evolves graph configuration activities after)
    (forest : graph.IsForest)
    (consistent : configuration.IsConsistent graph) :
    after.IsConsistent graph := by
  induction evolves with
  | nothing => exact consistent
  | @activity _ _ activity _ suits _ inductionHypothesis =>
      refine inductionHypothesis ?_
      cases completed : activity.completedStep? with
      | none => exact consistent
      | some step =>
          exact (suits.sound (Activity.attemptedStep?_of_completedStep? completed)).isConsistent
            forest consistent

/-- Completing the steps of a sound run leads to the configuration after them. -/
theorem completed
    {steps : List Step}
    (sound : SoundSteps graph configuration steps) :
    Evolves graph configuration (steps.map (Activity.completed : Step → Activity κ τ))
      (configuration.after steps) := by
  induction steps generalizing configuration with
  | nil => exact .nothing configuration
  | cons step steps inductionHypothesis =>
      exact .activity (Activity.suits_of_attemptedStep? rfl sound.1)
        (inductionHypothesis sound.2)

/-- Taking the steps of a sound run up to a failure leads to the configuration after the
completed ones. -/
theorem taken
    {fails : Step → StepError → List (Activity κ τ) → Prop}
    {steps done : List Step}
    {failure : Option StepError}
    (taken : Work.Taken fails steps done failure activities)
    (sound : SoundSteps graph configuration steps)
    (quiet : ∀ step error report, fails step error report →
      ∀ activity ∈ report, activity.IsQuiet) :
    Evolves graph configuration activities (configuration.after done) := by
  cases taken with
  | all => exact completed sound
  | @upTo _ rest step error report steps_eq failed =>
      rw [steps_eq] at sound
      refine ((completed (sound.beginning (List.prefix_append _ _))).trans
        (of_quiet (quiet step error report failed) _)).trans ?_
      exact .activity (Activity.suits_of_attemptedStep? rfl sound.rest.1) (.nothing _)

/-- What belongs to no worker changes nothing, so the deeds lead to the same configuration as
everything that happens. -/
theorem of_deeds
    (evolves :
      Evolves graph configuration (activities.filterMap Activity.deed?) after) :
    Evolves graph configuration activities after := by
  induction activities generalizing configuration with
  | nil => exact evolves
  | cons activity activities inductionHypothesis =>
      rcases activity.deed?_cases with ⟨foreign, quiet⟩ | own
      · rw [List.filterMap_cons_none foreign] at evolves
        refine .activity (quiet.suits graph configuration) ?_
        rw [quiet.completedStep?_eq]
        exact inductionHypothesis evolves
      · rw [List.filterMap_cons_some own] at evolves
        cases evolves with
        | activity suits rest => exact .activity suits (inductionHypothesis rest)

/-- When a worker is shown its configuration stays. -/
theorem published (definition : Definition κ τ ω) (worker : Worker κ) :
    Evolves definition.graph worker.configuration
      [(Activity.published (worker.snapshot definition) : Activity κ τ)] worker.configuration :=
  .activity (Activity.suits_published definition worker) (.nothing _)

end Evolves
end Configuration

open Statechart.Configuration (Evolves)

/-! ## Events -/

section Events

variable
  [DecidableEq κ]
  [StateKey κ]
  [DecidableEq τ]
  [Inspect τ]
  {definition : Definition κ τ ω}
  (wellFormed : definition.IsWellFormed)

include wellFormed

/-- The source of a selected entry is active. -/
theorem Account.IsRight.source_active
    {account : Account κ τ ω}
    (isRight : account.IsRight definition)
    (consistent : account.before.configuration.IsConsistent definition.graph)
    {entry : Entry κ τ ω}
    (chosen : account.chosen = some entry) :
    entry ∈ definition.table.entries ∧
      account.before.configuration.isActive entry.source = true := by
  obtain ⟨denied, later, candidates_eq, _⟩ := isRight.selects.first_allowed chosen
  have candidate : entry ∈ definition.table.candidatesFrom definition.graph
      (account.before.configuration.leaves definition.graph) account.event.trigger := by
    rw [candidates_eq]
    simp
  exact Definition.mem_candidatesFrom wellFormed consistent candidate

/-- The steps of an event lead to the configuration after it. -/
theorem Account.IsRight.evolves_steps
    {account : Account κ τ ω}
    (isRight : account.IsRight definition)
    (consistent : account.before.configuration.IsConsistent definition.graph) :
    Evolves definition.graph account.before.configuration account.steps
      account.configuration := by
  cases chosen : account.chosen with
  | none =>
      obtain ⟨done_eq, steps_eq, _⟩ := isRight.idle chosen
      rw [steps_eq, configuration, done_eq]
      exact .nothing _
  | some entry =>
      obtain ⟨steps, steps_eq, taken⟩ := isRight.taken chosen
      obtain ⟨listed, active⟩ := isRight.source_active wellFormed consistent chosen
      rw [steps_eq]
      refine (Evolves.of_quiet ?_ _).trans (.taken taken
        (Definition.soundSteps_stepsOf wellFormed consistent listed active) ?_)
      · intro activity member
        obtain ⟨plan, _, rfl⟩ := Option.map_eq_some_iff.mp (Option.mem_toList.mp member)
        exact ⟨rfl, rfl⟩
      · rintro step error _ ⟨rfl, _⟩
        simp

/-- An event leads to the configuration after it. -/
theorem Account.IsRight.evolves
    {account : Account κ τ ω}
    (isRight : account.IsRight definition)
    (consistent : account.before.configuration.IsConsistent definition.graph) :
    Evolves definition.graph account.before.configuration (account.chapter definition)
      (account.after definition).configuration := by
  have before_quiet : ∀ activity ∈ Activity.began account.event ::
      (told definition.observers (.begin (account.begun definition)) ++
        Work.selecting account.answers account.chosen), activity.IsQuiet := by
    intro activity member
    rcases List.mem_cons.mp member with rfl | member
    · exact ⟨rfl, rfl⟩
    · rcases List.mem_append.mp member with member | member
      · exact Activity.isQuiet_of_mem_told member
      · rcases Work.mem_selecting member with ⟨_, _, rfl⟩ | ⟨_, rfl⟩
        · exact ⟨rfl, rfl⟩
        · exact ⟨rfl, rfl⟩
  have after_quiet : ∀ activity ∈ reporting definition.observers (account.context definition)
      (account.closing definition), activity.IsQuiet := by
    intro activity member
    obtain ⟨_, _, member⟩ := List.mem_flatMap.mp member
    exact Activity.isQuiet_of_mem_told member
  rw [chapter, deeds_eq_append, early, ← List.cons_append, ← List.cons_append,
    ← List.cons_append]
  exact (((Evolves.of_quiet before_quiet _).trans
    (isRight.evolves_steps wellFormed consistent)).trans
      (Evolves.published definition (account.after definition))).trans
        (Evolves.of_quiet after_quiet _)

/-- Events processed to their ends lead to the configuration after them. -/
theorem Handles.evolves
    {first worker : Worker κ}
    {accounts : List (Account κ τ ω)}
    (handles : Handles definition first accounts worker)
    (consistent : first.configuration.IsConsistent definition.graph) :
    Evolves definition.graph first.configuration
        (accounts.flatMap (Account.chapter definition)) worker.configuration ∧
      worker.configuration.IsConsistent definition.graph := by
  induction handles with
  | nothing => exact ⟨.nothing _, consistent⟩
  | event _ isRight _ _ inductionHypothesis =>
      obtain ⟨earlier, between⟩ := inductionHypothesis
      have last := isRight.evolves wellFormed between
      rw [List.flatMap_append, List.flatMap_singleton]
      exact ⟨earlier.trans last, last.isConsistent wellFormed.forest between⟩

end Events

/-! ## The beginning and the end -/

section Ends

variable [DecidableEq κ] [StateKey κ] {definition : Definition κ τ ω}

omit [DecidableEq κ] [StateKey κ] in
/-- What is published at last shows the configuration that work has led to. -/
theorem Work.evolves_thenPublish
    {work : Work κ τ ω (Worker κ)}
    {configuration : Configuration}
    {worker : Worker κ}
    {deeds : List (Activity κ τ)}
    (evolves : ∀ earlier, work.Performs earlier worker →
      Evolves definition.graph configuration earlier worker.configuration)
    (performs : (thenPublish definition work).Performs deeds worker) :
    Evolves definition.graph configuration deeds worker.configuration := by
  obtain ⟨earlier, rfl, first⟩ := performs_thenPublish performs
  exact (evolves earlier first).trans (.published definition worker)

omit [DecidableEq κ] [StateKey κ] in
/-- The end of the start is quiet. -/
theorem Work.isQuiet_of_mem_starting
    {worker : Worker κ}
    {failure : Option StepError}
    {deed : Activity κ τ}
    (member : deed ∈ starting definition worker failure) :
    deed.IsQuiet := by
  cases failure with
  | none =>
      rw [List.mem_singleton.mp member]
      exact ⟨rfl, rfl⟩
  | some error => exact Activity.isQuiet_of_mem_told member

/-- Entering the first configuration leads there from nothing. -/
theorem Work.evolves_enterInitial
    (forest : definition.graph.IsForest)
    {worker after : Worker κ}
    (nothing : worker.configuration = Configuration.empty definition.graph.size)
    {deeds : List (Activity κ τ)}
    (performs : (enterInitial definition worker).Performs deeds after) :
    Evolves definition.graph worker.configuration deeds after.configuration := by
  obtain ⟨done, failure, steps, taken, rfl, rfl⟩ := performs_enterInitial performs
  refine (Evolves.taken taken (nothing ▸ Plan.soundSteps_initial forest) ?_).trans
    (.of_quiet (fun _ => isQuiet_of_mem_starting) _)
  rintro _ _ _ ⟨state, cause⟩ activity member
  rw [List.mem_singleton.mp member]
  exact ⟨rfl, rfl⟩

/-- Leaving states that can be left leads to the configuration without them. -/
theorem Work.Leaves.evolves
    {configuration : Configuration}
    {outcomes : List (Nat × Option Failure)}
    {deeds : List (Activity κ τ)}
    (leaves : Leaves definition configuration outcomes deeds)
    (sound : SoundSteps definition.graph configuration
      ((outcomes.map Prod.fst).map Step.exit)) :
    Evolves definition.graph configuration deeds
      (configuration.after ((outcomes.map Prod.fst).map Step.exit)) := by
  induction leaves with
  | nothing => exact .nothing _
  | @state configuration state failure _ _ _ _ inductionHypothesis =>
      have left : Evolves definition.graph configuration
          [(Activity.completed (.exit state) : Activity κ τ)] (configuration.deactivate state) :=
        .activity (Activity.suits_of_attemptedStep? rfl sound.1) (.nothing _)
      refine Evolves.trans ?_ (inductionHypothesis sound.2)
      cases failure with
      | none => exact left
      | some cause =>
          refine (Evolves.of_quiet ?_ _).trans left
          intro activity member
          rcases List.mem_cons.mp member with rfl | member
          · exact ⟨rfl, rfl⟩
          · exact Activity.isQuiet_of_mem_told member

/-- Leaving everything leads to the configuration of the worker that has left. -/
theorem Work.evolves_shutdown
    (forest : definition.graph.IsForest)
    {worker left : Worker κ}
    (consistent : worker.configuration.IsConsistent definition.graph)
    {deeds : List (Activity κ τ)}
    (performs : (shutdown definition worker).Performs deeds left) :
    Evolves definition.graph worker.configuration deeds left.configuration := by
  obtain ⟨outcomes, leaving, outcomes_eq, leaves, rfl, left_eq⟩ := performs_shutdown performs
  have reached : left.configuration = worker.configuration.after
      ((Plan.shutdown definition.graph worker.configuration).map .exit) :=
    congrArg Worker.configuration left_eq
  have evolves := leaves.evolves (outcomes_eq ▸ Plan.soundSteps_shutdown forest consistent)
  rw [outcomes_eq, ← reached] at evolves
  refine evolves.trans (.activity (Activity.suits_published definition left) (.of_quiet ?_ _))
  intro activity member
  rw [List.mem_singleton.mp member]
  exact ⟨rfl, rfl⟩

end Ends

/-! ## The course of time -/

section Course

variable
  [DecidableEq κ]
  [StateKey κ]
  [DecidableEq τ]
  [Inspect τ]
  {definition : Definition κ τ ω}

omit [DecidableEq τ] [Inspect τ] in
/-- The opening leads from the origin to the configuration of the first worker. -/
theorem Work.Begins.evolves
    {beginning : Beginning κ}
    {work : Work κ τ ω (Worker κ)}
    (begins : Begins definition beginning work)
    (forest : definition.graph.IsForest)
    {first : Worker κ}
    {deeds : List (Activity κ τ)}
    (performs : (thenPublish definition work).Performs deeds first) :
    Evolves definition.graph (beginning.origin definition.graph) deeds
      first.configuration := by
  refine evolves_thenPublish (fun earlier performs => ?_) performs
  cases begins with
  | start clock world => exact evolves_enterInitial forest rfl performs
  | restore restored =>
      simp only [performs_note_iff, performs_done_iff] at performs
      obtain ⟨_, rfl, rfl, rfl⟩ := performs
      rw [Beginning.origin, restored]
      refine .of_quiet (fun activity member => ?_) _
      rw [List.mem_singleton.mp member]
      exact ⟨rfl, rfl⟩

/-- The opening and the events processed to their ends lead from the origin to the
configuration of the worker. -/
theorem Work.Begins.evolves_handles
    {beginning : Beginning κ}
    {work : Work κ τ ω (Worker κ)}
    (begins : Begins definition beginning work)
    (wellFormed : definition.IsWellFormed)
    {opened : List (Activity κ τ)}
    {first worker : Worker κ}
    {accounts : List (Account κ τ ω)}
    (opens : (thenPublish definition work).Performs opened first)
    (handles : Handles definition first accounts worker) :
    Evolves definition.graph (beginning.origin definition.graph)
        (opened ++ accounts.flatMap (Account.chapter definition)) worker.configuration ∧
      worker.configuration.IsConsistent definition.graph := by
  have opening := begins.evolves wellFormed.forest opens
  obtain ⟨evolves, consistent⟩ := handles.evolves wellFormed
    (opening.isConsistent wellFormed.forest (beginning.isConsistent_origin wellFormed.forest))
  exact ⟨opening.trans evolves, consistent⟩

/-- What a worker has done, however far it has come, leads from the origin to the
configuration of the latest moment. A worker that waits for its next task is in this
configuration. -/
theorem Stage.evolves
    {beginning : Beginning κ}
    {work : Work κ τ ω (Worker κ)}
    {told : Bool}
    {remaining : Option (Worker κ)}
    {hand : Option (Task τ × Work κ τ ω (Worker κ))}
    {chronicle : Chronicle κ τ ω}
    (stage : Stage definition (Work.thenPublish definition work) told remaining hand chronicle)
    (begins : Work.Begins definition beginning work)
    (wellFormed : definition.IsWellFormed)
    (fits : definition.table.Fits definition.graph)
    (session : Session κ τ ω) :
    ∃ latest, Evolves definition.graph (beginning.origin definition.graph)
        (chronicle.deeds definition) latest ∧
      (hand = none → ∀ worker, remaining = some worker → worker.configuration = latest) := by
  -- What is done so far is the first part of what will have been done when the task ends.
  cases stage with
  | opening leads =>
      obtain ⟨rest, first, performs⟩ := leads.exists_performs session
      obtain ⟨latest, evolves, _⟩ := (begins.evolves wellFormed.forest performs).of_append
      refine ⟨latest, ?_, fun busy => absurd busy (Option.some_ne_none _)⟩
      simpa [Chronicle.deeds] using evolves
  | idle opens handles =>
      obtain ⟨evolves, _⟩ := begins.evolves_handles wellFormed opens handles
      refine ⟨_, ?_, fun _ worker same => congrArg Worker.configuration (Option.some.inj same).symm⟩
      simpa [Chronicle.deeds] using evolves
  | event opens handles leads =>
      obtain ⟨evolves, consistent⟩ := begins.evolves_handles wellFormed opens handles
      obtain ⟨rest, after, performs⟩ := leads.exists_performs session
      obtain ⟨account, isRight, rfl, rfl, deeds_eq, _⟩ :=
        Work.exists_account_of_performs_process wellFormed.forest fits performs
      have chapter_evolves := isRight.evolves wellFormed consistent
      rw [Account.chapter, deeds_eq, ← List.cons_append] at chapter_evolves
      obtain ⟨latest, sofar, _⟩ := chapter_evolves.of_append
      exact ⟨latest, evolves.trans sofar, fun busy => absurd busy (Option.some_ne_none _)⟩
  | closing opens handles leads =>
      obtain ⟨evolves, consistent⟩ := begins.evolves_handles wellFormed opens handles
      obtain ⟨rest, left, performs⟩ := leads.exists_performs session
      obtain ⟨latest, sofar, _⟩ :=
        (Work.evolves_shutdown wellFormed.forest consistent performs).of_append
      exact ⟨latest, evolves.trans sofar, fun busy => absurd busy (Option.some_ne_none _)⟩
  | ended opens handles performs =>
      obtain ⟨evolves, consistent⟩ := begins.evolves_handles wellFormed opens handles
      exact ⟨_, evolves.trans (Work.evolves_shutdown wellFormed.forest consistent performs),
        fun _ _ gone => absurd gone.symm (Option.some_ne_none _)⟩

namespace Course

/-- Everything that happened in a course, the earliest first. -/
def activities (course : Course definition) : List (Activity κ τ) :=
  course.scene.machine.session.activities

/-- The configuration at a moment of a course, which is given by what happened until then. -/
def configurationAt
    (course : Course definition)
    (moment : List (Activity κ τ)) : Configuration :=
  (course.beginning.origin definition.graph).after (completedSteps moment)

/-- Everything that happens in a course leads from its origin to the configuration of the
latest moment. -/
theorem evolves
    {draft : MachineDraft κ τ ω}
    (built : draft.build = .ok definition)
    (course : Course definition) :
    ∃ latest, Configuration.Evolves definition.graph
        (course.beginning.origin definition.graph) course.activities latest ∧
      (course.scene.hand = none → ∀ worker, course.scene.machine.worker = some worker →
        worker.configuration = latest) := by
  obtain ⟨work, chronicle, begins, unfolds⟩ := course.exists_unfolds_of_begins built
  obtain ⟨latest, evolves, idle⟩ :=
    unfolds.stage.evolves begins (Definition.isWellFormed_of_build built)
      (Definition.fits_of_build built) course.scene.machine.session
  rw [← unfolds.deeds_eq] at evolves
  exact ⟨latest, evolves.of_deeds, idle⟩

/-- Whatever happens in a course, each thing can take place in the configuration of the moment
before it. -/
theorem suits
    {draft : MachineDraft κ τ ω}
    (built : draft.build = .ok definition)
    (course : Course definition)
    {earlier later : List (Activity κ τ)}
    {activity : Activity κ τ}
    (split : course.activities = earlier ++ activity :: later) :
    activity.Suits definition.graph (course.configurationAt earlier) := by
  obtain ⟨_, evolves, _⟩ := course.evolves built
  rw [split] at evolves
  obtain ⟨between, before, next⟩ := evolves.of_append
  rw [configurationAt, ← before.after_eq]
  cases next with
  | activity suits _ => exact suits

end Course
end Course
end Statechart
