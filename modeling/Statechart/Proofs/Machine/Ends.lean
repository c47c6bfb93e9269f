import Statechart.Proofs.Machine.Performance

/-!
# The beginning and the end of a worker

Before its first event a worker enters or restores a configuration, and after the last one
it leaves everything. What it does then belongs to no event. Observers are only told of
entries and exits that failed, and no event is counted.
-/

namespace Statechart

variable {κ τ ω : Type}

/-- The deed belongs to no event but to one end of a machine's life. -/
inductive Activity.IsApart (phase : LifecyclePhase) : Activity κ τ → Prop
  | restored : IsApart phase .restored
  | completed (step : Step) : IsApart phase (.completed step)
  | failed (step : Step) (error : StepError) : IsApart phase (.failed step error)
  | started (active : List κ) (observers : Nat) : IsApart phase (.started active observers)
  | startFailed (state : String) (cause : Failure) : IsApart phase (.startFailed state cause)
  | stopFailed (state : String) (cause : Failure) : IsApart phase (.stopFailed state cause)
  | lifecycle (observer : Nat) (active : List κ) (error : StepError) :
      IsApart phase (.notified observer (.lifecycle phase active error))
  | published (snapshot : Snapshot κ) : IsApart phase (.published snapshot)
  | stopped (processed : Nat) : IsApart phase (.stopped processed)

/-- Telling observers of a failure at one end belongs to no event. -/
theorem isApart_of_mem_told
    {observers : List (Observer κ τ ω)}
    {phase : LifecyclePhase}
    {active : List κ}
    {error : StepError}
    {deed : Activity κ τ}
    (member : deed ∈ told observers (.lifecycle phase active error)) :
    deed.IsApart phase := by
  obtain ⟨observer, _, rfl⟩ := List.mem_map.mp member
  exact .lifecycle observer active error

namespace Work

variable
  {definition : Definition κ τ ω}
  {deeds : List (Activity κ τ)}
  {worker after : Worker κ}

/-- What a worker shows of itself is published last. -/
theorem performs_thenPublish
    {work : Work κ τ ω (Worker κ)}
    (performs : (thenPublish definition work).Performs deeds after) :
    ∃ earlier, deeds = earlier ++ [.published (after.snapshot definition)] ∧
      work.Performs earlier after := by
  simp only [thenPublish, performs_bind_iff, performs_publish_iff, performs_done_iff] at performs
  obtain ⟨_, earlier, _, rfl, first, _, rfl, rfl, rfl⟩ := performs
  exact ⟨earlier, rfl, first⟩

/-- The work brings a worker into being that has counted as many events as the base, and
shows it. -/
structure Opens
    (definition : Definition κ τ ω)
    (base : UInt64)
    (opening : Work κ τ ω (Worker κ)) : Prop where
  /-- The count is that of the base. -/
  count_eq {deeds : List (Activity κ τ)} {worker : Worker κ} :
    opening.Performs deeds worker → worker.metadata.count = base
  /-- The worker is shown at last. -/
  shownAfter_eq {deeds : List (Activity κ τ)} {worker : Worker κ} :
    opening.Performs deeds worker → ∀ blank : Snapshot κ,
      Session.shownAfter blank deeds = worker.snapshot definition
  /-- The deeds belong to no event. -/
  apart {deeds : List (Activity κ τ)} {worker : Worker κ} :
    opening.Performs deeds worker → ∀ deed ∈ deeds, deed.IsApart .start

/-- Work opens if it brings about a worker with the right count, who is then shown. -/
theorem opens_thenPublish
    {definition : Definition κ τ ω}
    {base : UInt64}
    {work : Work κ τ ω (Worker κ)}
    (counts : ∀ deeds worker, work.Performs deeds worker → worker.metadata.count = base)
    (apart : ∀ deeds worker, work.Performs deeds worker →
      ∀ deed ∈ deeds, deed.IsApart .start) :
    (thenPublish definition work).Opens definition base where
  count_eq performs := by
    obtain ⟨_, _, first⟩ := performs_thenPublish performs
    exact counts _ _ first
  shownAfter_eq performs blank := by
    obtain ⟨_, rfl, _⟩ := performs_thenPublish performs
    rw [Session.shownAfter_append]
    rfl
  apart performs := by
    obtain ⟨_, rfl, first⟩ := performs_thenPublish performs
    intro deed member
    rcases List.mem_append.mp member with member | member
    · exact apart _ _ first deed member
    · rw [List.mem_singleton.mp member]
      exact .published _

section Ends

variable [DecidableEq κ] [StateKey κ]

/-- A state that cannot be entered at the start is reported at once. -/
inductive EntryFails (definition : Definition κ τ ω) :
    Step → StepError → List (Activity κ τ) → Prop
  | enter (state : Nat) (cause : Failure) :
      EntryFails definition (.enter state)
        (.entryFailed (definition.graph.nameOf state) cause)
        [.startFailed (definition.graph.nameOf state) cause]

/-- An attempt to enter a state is reported if it fails. -/
theorem performs_attemptEntry
    {step : Step}
    {result : Except StepError Unit}
    (performs : (attemptEntry definition step).Performs deeds result) :
    (result = .ok () → deeds = []) ∧
      ∀ error, result = .error error → EntryFails definition step error deeds := by
  cases step with
  | exit state =>
      obtain ⟨rfl, rfl⟩ := performs_done_iff.mp performs
      simp
  | act position =>
      obtain ⟨rfl, rfl⟩ := performs_done_iff.mp performs
      simp
  | enter state =>
      simp only [attemptEntry, performs_bind_iff] at performs
      obtain ⟨outcome, earlier, later, rfl, ran, ends⟩ := performs
      obtain rfl := eq_nil_of_performs_runStateAction ran
      cases outcome with
      | ok _ =>
          obtain ⟨rfl, rfl⟩ := performs_done_iff.mp ends
          simp
      | error failure =>
          simp only [performs_note_iff, performs_done_iff] at ends
          obtain ⟨_, rfl, rfl, rfl⟩ := ends
          constructor
          · intro succeeded
            cases succeeded
          · intro error failed
            cases failed
            exact .enter state failure

/-- The deeds with which a worker ends its start, with or without a failure. -/
def starting
    (definition : Definition κ τ ω)
    (worker : Worker κ) : Option StepError → List (Activity κ τ)
  | none => [.started (worker.active definition) definition.observers.length]
  | some error =>
      told definition.observers (.lifecycle .start (worker.active definition) error)

/-- The first configuration is entered by taking steps, and then the end of the start is
told. -/
theorem performs_enterInitial_takeSteps
    (performs : (enterInitial definition worker).Performs deeds after) :
    ∃ failure steps,
      (takeSteps (attemptEntry definition) ((Plan.initial definition.graph).map .enter)
          worker.configuration).Performs steps (failure, after.configuration) ∧
        deeds = steps ++ starting definition after failure ∧
        after = { worker with configuration := after.configuration } := by
  simp only [enterInitial, performs_bind_iff] at performs
  obtain ⟨⟨failure, configuration⟩, steps, later, rfl, takes, ends⟩ := performs
  refine ⟨failure, steps, ?_⟩
  cases failure with
  | none =>
      simp only [performs_note_iff, performs_done_iff] at ends
      obtain ⟨_, rfl, rfl, rfl⟩ := ends
      exact ⟨takes, rfl, rfl⟩
  | some error =>
      simp only [performs_bind_iff, performs_done_iff] at ends
      obtain ⟨_, _, _, rfl, tells, rfl, rfl⟩ := ends
      obtain rfl := eq_of_performs_notify tells
      exact ⟨takes, by rw [List.append_nil]; rfl, rfl⟩

/-- States are entered up to the first failure. -/
theorem performs_takeSteps_attemptEntry
    {steps : List Step}
    {configuration reached : Configuration}
    {failure : Option StepError}
    (performs : (takeSteps (attemptEntry definition) steps configuration).Performs deeds
      (failure, reached)) :
    ∃ done, Taken (EntryFails definition) steps done failure deeds ∧
      reached = configuration.after done :=
  performs_takeSteps (fun _ _ attempted => (performs_attemptEntry attempted).1 rfl)
    (fun _ _ _ attempted => (performs_attemptEntry attempted).2 _ rfl) performs

/-- The first configuration is entered up to the first failure. -/
theorem performs_enterInitial
    (performs : (enterInitial definition worker).Performs deeds after) :
    ∃ done failure steps,
      Taken (EntryFails definition) ((Plan.initial definition.graph).map .enter) done failure
          steps ∧
        deeds = steps ++ starting definition after failure ∧
        after = { worker with configuration := worker.configuration.after done } := by
  obtain ⟨failure, steps, takes, deeds_eq, after_eq⟩ := performs_enterInitial_takeSteps performs
  obtain ⟨done, taken, reached_eq⟩ := performs_takeSteps_attemptEntry takes
  exact ⟨done, failure, steps, taken, deeds_eq, reached_eq ▸ after_eq⟩

/-- Entering the first configuration belongs to no event. -/
theorem isApart_of_performs_enterInitial
    (performs : (enterInitial definition worker).Performs deeds after) :
    ∀ deed ∈ deeds, deed.IsApart .start := by
  obtain ⟨done, failure, steps, taken, rfl, -⟩ := performs_enterInitial performs
  intro deed member
  rcases List.mem_append.mp member with member | member
  · rcases taken.mem_cases member with ⟨step, rfl⟩ | ⟨_, _, _, failed, member⟩ | ⟨_, _, rfl, _⟩
    · exact .completed step
    · cases failed
      rw [List.mem_singleton.mp member]
      exact .startFailed _ _
    · exact .failed _ _
  · cases failure with
    | none =>
        rw [List.mem_singleton.mp member]
        exact .started _ _
    | some error => exact isApart_of_mem_told member

/-- The deeds of leaving a state at the end, with or without a failure of its exit action. -/
def leaving
    (definition : Definition κ τ ω)
    (active : List κ)
    (state : Nat) : Option Failure → List (Activity κ τ)
  | none => [.completed (.exit state)]
  | some cause =>
      .stopFailed (definition.graph.nameOf state) cause ::
        told definition.observers
          (.lifecycle .stop active (.exitFailed (definition.graph.nameOf state) cause)) ++
        [.completed (.exit state)]

/-- States are left one after the other with some outcomes. The observers are told which
leaves were active when an exit action failed. -/
inductive Leaves (definition : Definition κ τ ω) :
    Configuration → List (Nat × Option Failure) → List (Activity κ τ) → Prop
  /-- No state is left. -/
  | nothing (configuration : Configuration) : Leaves definition configuration [] []
  /-- A state is left first. -/
  | state
      {configuration : Configuration}
      {state : Nat}
      {failure : Option Failure}
      {outcomes : List (Nat × Option Failure)}
      {deeds : List (Activity κ τ)}
      (ran : (runStateAction (definition.exitAction? state)).Performs ([] : List (Activity κ τ))
        (failure.elim (.ok ()) .error))
      (rest : Leaves definition (configuration.deactivate state) outcomes deeds) :
      Leaves definition configuration ((state, failure) :: outcomes)
        (leaving definition
          (definition.graph.keys (configuration.leaves definition.graph)) state failure ++ deeds)

/-- Leaving states is completed whether exit actions fail or not. -/
theorem performs_leaveAll
    {states : List Nat}
    (performs : (leaveAll definition states worker).Performs deeds after) :
    ∃ outcomes, outcomes.map Prod.fst = states ∧
      Leaves definition worker.configuration outcomes deeds ∧
      after = { worker with configuration := worker.configuration.after (states.map .exit) } := by
  induction states generalizing worker deeds with
  | nil =>
      obtain ⟨rfl, rfl⟩ := performs_done_iff.mp performs
      exact ⟨[], rfl, .nothing _, rfl⟩
  | cons state states inductionHypothesis =>
      simp only [leaveAll, performs_bind_iff] at performs
      obtain ⟨outcome, earlier, later, rfl, ran, rest⟩ := performs
      obtain rfl := eq_nil_of_performs_runStateAction ran
      cases outcome with
      | ok _ =>
          obtain ⟨_, rfl, next⟩ := performs_note_iff.mp rest
          obtain ⟨outcomes, rfl, leaves, after_eq⟩ := inductionHypothesis next
          exact ⟨(state, none) :: outcomes, rfl, .state ran leaves, after_eq⟩
      | error cause =>
          simp only [performs_note_iff, performs_bind_iff] at rest
          obtain ⟨_, rfl, _, _, _, rfl, tells, _, rfl, next⟩ := rest
          obtain rfl := eq_of_performs_notify tells
          obtain ⟨outcomes, rfl, leaves, after_eq⟩ := inductionHypothesis next
          refine ⟨(state, some cause) :: outcomes, rfl, ?_, after_eq⟩
          have leavesAll : Leaves definition worker.configuration
              ((state, some cause) :: outcomes) _ := .state ran leaves
          rw [leaving, List.append_assoc, List.cons_append] at leavesAll
          exact leavesAll

/-- Leaving states belongs to no event. -/
theorem Leaves.isApart
    {configuration : Configuration}
    {outcomes : List (Nat × Option Failure)}
    (leaves : Leaves definition configuration outcomes deeds) :
    ∀ deed ∈ deeds, deed.IsApart .stop := by
  induction leaves with
  | nothing => simp
  | @state _ _ failure _ _ _ _ inductionHypothesis =>
      intro deed member
      rcases List.mem_append.mp member with member | member
      · cases failure with
        | none =>
            rw [List.mem_singleton.mp member]
            exact .completed _
        | some cause =>
            rw [leaving, List.mem_append, List.mem_cons, List.mem_singleton] at member
            rcases member with (rfl | member) | rfl
            · exact .stopFailed _ _
            · exact isApart_of_mem_told member
            · exact .completed _
      · exact inductionHypothesis deed member

/-- Everything is left, the worker is shown, and the end is noted. -/
theorem performs_shutdown
    (performs : (shutdown definition worker).Performs deeds after) :
    ∃ outcomes leaving,
      outcomes.map Prod.fst = Plan.shutdown definition.graph worker.configuration ∧
        Leaves definition worker.configuration outcomes leaving ∧
        deeds = leaving ++ [.published (after.snapshot definition),
          .stopped after.metadata.processed] ∧
        after =
          { worker with
            configuration := worker.configuration.after
              ((Plan.shutdown definition.graph worker.configuration).map .exit) } := by
  simp only [shutdown, performs_bind_iff, performs_note_iff, performs_done_iff] at performs
  obtain ⟨_, earlier, _, rfl, publishes, _, rfl, rfl, rfl⟩ := performs
  obtain ⟨leaving, rfl, left⟩ := performs_thenPublish publishes
  obtain ⟨outcomes, outcomes_eq, leaves, after_eq⟩ := performs_leaveAll left
  exact ⟨outcomes, leaving, outcomes_eq, leaves, by rw [List.append_assoc]; rfl, after_eq⟩

/-- Leaving everything belongs to no event. -/
theorem isApart_of_performs_shutdown
    (performs : (shutdown definition worker).Performs deeds after) :
    ∀ deed ∈ deeds, deed.IsApart .stop := by
  obtain ⟨_, leaving, _, leaves, rfl, _⟩ := performs_shutdown performs
  intro deed member
  rw [List.mem_append, List.mem_cons, List.mem_singleton] at member
  rcases member with member | rfl | rfl
  · exact leaves.isApart deed member
  · exact .published _
  · exact .stopped _

end Ends
end Work
end Statechart
