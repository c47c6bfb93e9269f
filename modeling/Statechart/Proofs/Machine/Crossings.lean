import Statechart.Proofs.Machine.Evolution

/-!
# Entries and exits in turn

Whatever fails on the way, no active state is entered and no inactive state is left. So the
completed entries and exits of a state take turns, and the first of them is an exit exactly
if the state was restored as active.
-/

namespace Statechart

variable {κ τ ω : Type}

/-- The step enters or leaves a state. -/
def Step.crosses (state : Nat) : Step → Bool
  | .exit other => other == state
  | .act _ => false
  | .enter other => other == state

/-- The completed entries and exits of a state, in order. -/
def crossings (state : Nat) (activities : List (Activity κ τ)) : List Step :=
  (completedSteps activities).filter (Step.crosses state)

/-- A step that enters or leaves a state does nothing else. -/
theorem Step.crosses_iff {state : Nat} {step : Step} :
    step.crosses state = true ↔ step = .enter state ∨ step = .exit state := by
  cases step <;> simp [crosses]

/-- A step that neither enters nor leaves a state lets it be. -/
theorem Step.isActive_apply_of_not_crosses
    {state : Nat}
    {step : Step}
    (elsewhere : step.crosses state = false)
    (configuration : Configuration) :
    (step.apply configuration).isActive state = configuration.isActive state := by
  cases step with
  | exit other =>
      rw [apply, Configuration.isActive_deactivate, if_neg (by simpa [crosses] using elsewhere)]
  | act position => rfl
  | enter other =>
      have different : other ≠ state := by simpa [crosses] using elsewhere
      rw [apply, Configuration.isActive_activate, if_neg fun same => different same.1]

/-- A sound step that crosses a state turns it over, and it is an exit exactly if the state
was active. -/
theorem Step.IsSound.turns
    {graph : Graph κ}
    {configuration : Configuration}
    {step : Step}
    (sound : step.IsSound graph configuration)
    (consistent : configuration.IsConsistent graph)
    {state : Nat}
    (crosses : step.crosses state = true) :
    (step.apply configuration).isActive state = !configuration.isActive state ∧
      (step = .exit state ↔ configuration.isActive state = true) := by
  obtain rfl | rfl := Step.crosses_iff.mp crosses
  · obtain ⟨inside, inactive, _⟩ := sound
    rw [← consistent.flags_size] at inside
    simp [Step.apply, Configuration.isActive_activate, inside, inactive]
  · simp [Step.apply, Configuration.isActive_deactivate, sound.1]

namespace SoundSteps

variable {graph : Graph κ} {configuration : Configuration}

/-- In a sound run the entries and exits of a state take turns, and the first of them is an
exit exactly if the state is active before. -/
theorem alternate
    {steps : List Step}
    (sound : SoundSteps graph configuration steps)
    (forest : graph.IsForest)
    (consistent : configuration.IsConsistent graph)
    (state : Nat) :
    (steps.filter (Step.crosses state)).IsChain (· ≠ ·) ∧
      ∀ step ∈ (steps.filter (Step.crosses state)).head?,
        (step = .exit state ↔ configuration.isActive state = true) := by
  induction steps generalizing configuration with
  | nil => simp
  | cons step steps inductionHypothesis =>
      obtain ⟨chain, first⟩ :=
        inductionHypothesis sound.2 (sound.1.isConsistent forest consistent)
      by_cases crosses : step.crosses state = true
      · obtain ⟨turned, exit_iff⟩ := sound.1.turns consistent crosses
        rw [List.filter_cons_of_pos crosses, List.isChain_cons]
        refine ⟨⟨fun other next same => ?_, chain⟩, ?_⟩
        · have next_iff := first other next
          rw [← same, exit_iff, turned] at next_iff
          simp at next_iff
        · rintro _ ⟨⟩
          exact exit_iff
      · rw [List.filter_cons_of_neg crosses]
        refine ⟨chain, fun other next => ?_⟩
        rw [first other next,
          Step.isActive_apply_of_not_crosses (Bool.eq_false_iff.mpr crosses)]

end SoundSteps

/-- What evolves does so by sound steps. -/
theorem Configuration.Evolves.soundSteps
    {graph : Graph κ}
    {configuration after : Configuration}
    {activities : List (Activity κ τ)}
    (evolves : Evolves graph configuration activities after) :
    SoundSteps graph configuration (completedSteps activities) := by
  induction evolves with
  | nothing => trivial
  | @activity _ _ activity activities suits _ inductionHypothesis =>
      rw [← List.singleton_append, completedSteps_append, completedSteps]
      cases completed : activity.completedStep? with
      | none => simpa [completed] using inductionHypothesis
      | some step =>
          rw [completed] at inductionHypothesis
          have sound := suits.sound (Activity.attemptedStep?_of_completedStep? completed)
          simpa [completed] using ⟨sound, inductionHypothesis⟩

namespace Course

variable
  [DecidableEq κ]
  [StateKey κ]
  [DecidableEq τ]
  [Inspect τ]
  {definition : Definition κ τ ω}

/-- Entries and exits take turns in a course. -/
structure TakesTurns (course : Course definition) : Prop where
  /-- An entry is only attempted while the state is inactive. -/
  entered {earlier later : List (Activity κ τ)} {activity : Activity κ τ} {state : Nat} :
    course.activities = earlier ++ activity :: later →
      activity.attemptedStep? = some (.enter state) →
        (course.configurationAt earlier).isActive state = false
  /-- An exit is only attempted while the state is active. -/
  left {earlier later : List (Activity κ τ)} {activity : Activity κ τ} {state : Nat} :
    course.activities = earlier ++ activity :: later →
      activity.attemptedStep? = some (.exit state) →
        (course.configurationAt earlier).isActive state = true
  /-- The leaves that are active by then are shown in every snapshot. -/
  shown {earlier later : List (Activity κ τ)} {snapshot : Snapshot κ} :
    course.activities = earlier ++ .published snapshot :: later →
      snapshot.active =
        definition.graph.keys ((course.configurationAt earlier).leaves definition.graph)
  /-- A worker that waits for its next task is in the configuration of the latest moment. -/
  idle {worker : Worker κ} :
    course.scene.hand = none → course.scene.machine.worker = some worker →
      worker.configuration = course.configurationAt course.activities
  /-- After a completed entry of a state its next completed crossing is an exit, and the
  other way round. -/
  alternating (state : Nat) : (crossings state course.activities).IsChain (· ≠ ·)
  /-- The first completed crossing of a state is an exit exactly if the course begins with a
  checkpoint in which the state is active. -/
  first {state : Nat} {step : Step} :
    (crossings state course.activities).head? = some step →
      (step = .exit state ↔ ∃ checkpoint configuration,
        course.beginning = .restore checkpoint ∧
          Machine.configurationOf definition.graph checkpoint = .ok configuration ∧
          configuration.isActive state = true)

/-- Whatever happens in the course of time, no active state is entered and no inactive state
is left, and entries and exits take turns. -/
theorem takesTurns
    {draft : MachineDraft κ τ ω}
    (built : draft.build = .ok definition) :
    (∀ run : Run definition, ∃ course : Course definition,
      course.beginning = run.beginning ∧ course.scene = run.machine.scene) ∧
      ∀ course : Course definition, course.TakesTurns := by
  have forest := (Definition.isWellFormed_of_build built).forest
  refine ⟨fun run => run.exists_course, fun course => ?_⟩
  obtain ⟨latest, evolves, idle⟩ := course.evolves built
  have alternate := evolves.soundSteps.alternate forest
    (course.beginning.isConsistent_origin forest)
  exact {
    entered := fun split attempted => ((course.suits built split).sound attempted).2.1
    left := fun split attempted => ((course.suits built split).sound attempted).1
    shown := fun split => (course.suits built split).shown rfl
    idle := fun idles isWorker => (idle idles _ isWorker).trans evolves.after_eq
    alternating := fun state => (alternate state).1
    first := by
      intro state step first
      rw [(alternate state).2 step first]
      cases beginning_eq : course.beginning with
      | start => simp [Beginning.origin]
      | restore checkpoint =>
          rw [Beginning.origin]
          cases restored : Machine.configurationOf definition.graph checkpoint with
          | error problem => simp [Except.toOption, restored]
          | ok configuration => simp [Except.toOption, restored] }

/-! ## An example -/

open Run (crossing crossingDraft midnight)

/-- A checkpoint with two active leaves. -/
def crossed : Checkpoint String :=
  ((Machine.new (crossing ["loud"]) midnight ()).begin .start).2.checkpoint .nil

/-- The checkpoint stands for a configuration. -/
theorem configurationOf_crossed :
    Machine.configurationOf (crossing ["loud"]).graph crossed =
      .ok ⟨#[true, true, false, true, false]⟩ := by
  cbv

/-- A course that begins with the checkpoint. The transition is taken twice, and the exit of
one state breaks off the second time and at the end. -/
def turning : Course (crossing ["loud"]) where
  clock := midnight
  world := ()
  beginning := .restore crossed
  first :=
    let machine := Machine.new (crossing ["loud"]) midnight ()
    Scene.launched (machine.comparingName crossed) crossed.metadata.count
      (.note .restored .restored
        (.done ⟨⟨#[true, true, false, true, false]⟩, crossed.history, crossed.metadata⟩))
  accepted := by
    have restored : Machine.configurationOf
        (Machine.new (crossing ["loud"]) midnight ()).definition.graph crossed = _ :=
      configurationOf_crossed
    rw [Scene.begin, restored]
  moves :=
    .operation (.fire (.new .nil "cross")) :: .operation (.fire (.new .nil "cross")) ::
      List.replicate 40 (.operation .advance) ++ .operation .requestStop :: .tell ::
        List.replicate 20 (.operation .advance)

/-- The state that was restored as active is left, entered and left again, while the exit that
breaks off is only completed at the end. -/
theorem takesTurns_turning :
    (crossingDraft ["loud"]).build = .ok (crossing ["loud"]) ∧
      crossings 1 turning.activities = [.exit 1, .enter 1, .exit 1] ∧
      crossings 4 turning.activities = [.enter 4, .exit 4] ∧
      turning.activities.filterMap Activity.attemptedStep? =
        [.exit 1, .exit 3, .enter 1, .enter 4, .exit 1, .exit 4, .exit 4, .exit 0] ∧
      turning.TakesTurns := by
  have built : (crossingDraft ["loud"]).build = .ok (crossing ["loud"]) := by cbv
  exact ⟨built, by cbv, by cbv, by cbv, (takesTurns built).2 turning⟩

end Course

end Statechart
