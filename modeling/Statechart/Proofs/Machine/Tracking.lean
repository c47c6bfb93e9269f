import Statechart.Proofs.Machine.Run
import Statechart.Proofs.Machine.Worker

/-!
# The configuration of a machine in the course of a run

The steps that have been completed determine the configuration of the worker at every
moment of a run. They are sound, so the configuration is consistent at every moment, also
between two steps of one transition and after a failure half-way. While no step fails it
is complete after the beginning and after every event.
-/

namespace Statechart

variable {κ τ ω : Type}

namespace Machine

variable
  [DecidableEq κ]
  [StateKey κ]
  {definition : Definition κ τ ω}
  {beginning : Beginning κ}
  {machine after : Machine κ τ ω}

/-- The journal of a machine tells the configuration of its worker: it is what sound steps
have made of the origin. -/
structure Tracks
    (definition : Definition κ τ ω)
    (beginning : Beginning κ)
    (machine : Machine κ τ ω) : Prop where
  /-- The definition does not change. -/
  definition_eq : machine.definition = definition
  /-- The machine cannot begin again. -/
  begun : machine.session.phase ≠ .created
  /-- All completed steps were sound. -/
  sound : SoundSteps definition.graph (beginning.origin definition.graph)
    machine.session.completedSteps
  /-- The worker has carried out the completed steps. -/
  configuration_eq {worker : Worker κ} :
    machine.worker = some worker →
      worker.configuration =
        (beginning.origin definition.graph).after machine.session.completedSteps
  /-- The worker is published as it is. -/
  published_eq {worker : Worker κ} :
    machine.worker = some worker → machine.session.published = worker.snapshot definition
  /-- Unless a step has failed, the configuration is complete. -/
  complete {worker : Worker κ} :
    machine.worker = some worker → beginning.IsComplete definition.graph →
      machine.session.IsUnfailing → worker.configuration.IsComplete definition.graph

namespace Tracks

/-- What leaves the worker alone and completes no step does not matter. -/
theorem of_unchanged
    (tracks : machine.Tracks definition beginning)
    (definition_eq : after.definition = machine.definition)
    (worker_eq : after.worker = machine.worker)
    (begun : after.session.phase ≠ .created)
    (published_eq : after.session.published = machine.session.published)
    (completed_eq : after.session.completedSteps = machine.session.completedSteps)
    (journal_kept : machine.session.journal <:+ after.session.journal) :
    after.Tracks definition beginning where
  definition_eq := definition_eq.trans tracks.definition_eq
  begun := begun
  sound := by
    rw [completed_eq]
    exact tracks.sound
  configuration_eq := by
    rw [worker_eq, completed_eq]
    exact tracks.configuration_eq
  published_eq := by
    rw [worker_eq, published_eq]
    exact tracks.published_eq
  complete := by
    rw [worker_eq]
    exact fun isWorker isComplete unfailing =>
      tracks.complete isWorker isComplete (unfailing.of_suffix journal_kept)

/-- What callers and callbacks do to the session does not matter. -/
theorem of_passes
    (tracks : machine.Tracks definition beginning)
    (definition_eq : after.definition = machine.definition)
    (worker_eq : after.worker = machine.worker)
    (passes : machine.session.Passes [] after.session) :
    after.Tracks definition beginning := by
  refine tracks.of_unchanged definition_eq worker_eq ?_ passes.published_eq ?_
    passes.journal_kept
  · rw [passes.phase_eq]
    exact tracks.begun
  · rw [passes.completed_eq, List.append_nil]

/-- The worker of a machine is consistent. -/
theorem isConsistent
    (tracks : machine.Tracks definition beginning)
    (wellFormed : definition.IsWellFormed)
    {worker : Worker κ}
    (isWorker : machine.worker = some worker) :
    worker.configuration.IsConsistent definition.graph := by
  rw [tracks.configuration_eq isWorker]
  exact tracks.sound.isConsistent wellFormed.forest
    (beginning.isConsistent_origin wellFormed.forest) (List.prefix_refl _)

/-- A worker that moves takes its machine along. -/
theorem of_moves
    (tracks : machine.Tracks definition beginning)
    {worker : Worker κ}
    (isWorker : machine.worker = some worker)
    {session : Session κ τ ω}
    (passes : machine.session.Passes [] session)
    {done : List Step}
    {moved : Worker κ × Session κ τ ω}
    (moves : worker.Moves definition session done moved)
    (stays : moved.2.IsUnfailing → worker.configuration.IsComplete definition.graph →
      moved.1.configuration.IsComplete definition.graph)
    (definition_eq : after.definition = machine.definition)
    (worker_eq : after.worker = some moved.1)
    (session_eq : after.session = moved.2) :
    after.Tracks definition beginning := by
  have moves := moves.of_passes passes
  have configuration_eq := tracks.configuration_eq isWorker
  exact {
    definition_eq := definition_eq.trans tracks.definition_eq
    begun := by
      rw [session_eq, moves.phase_eq]
      exact tracks.begun
    sound := by
      rw [session_eq, moves.completed_eq]
      refine tracks.sound.append ?_
      rw [← configuration_eq]
      exact moves.sound
    configuration_eq := by
      intro other isOther
      rw [worker_eq] at isOther
      cases isOther
      rw [session_eq, moves.completed_eq, Configuration.after_append, ← configuration_eq,
        moves.configuration_eq]
    published_eq := by
      intro other isOther
      rw [worker_eq] at isOther
      cases isOther
      rw [session_eq, moves.published_eq]
    complete := by
      intro other isOther isComplete unfailing
      rw [worker_eq] at isOther
      cases isOther
      rw [session_eq] at unfailing
      exact stays unfailing
        (tracks.complete isWorker isComplete (unfailing.of_suffix moves.journal_kept)) }

end Tracks

/-! ## Operations -/

omit [DecidableEq κ] [StateKey κ] in
/-- Comparing names completes no step. -/
theorem passes_comparingName (machine : Machine κ τ ω) (checkpoint : Checkpoint κ) :
    machine.session.Passes [] (machine.comparingName checkpoint).session := by
  rcases machine.comparingName_cases checkpoint with same | noted
  · rw [same]
    exact Session.Passes.refl _
  · rw [noted]
    exact Session.passes_note_of_none _ rfl

namespace Tracks

variable
  [Inspect τ]
  [DecidableEq τ]
  (tracks : machine.Tracks definition beginning)
  (wellFormed : definition.IsWellFormed)

include tracks

omit [Inspect τ] [DecidableEq τ] in
/-- A machine that has begun turns a checkpoint down. -/
theorem startFrom (checkpoint : Checkpoint κ) (hasRuntime : Bool) :
    (machine.startFrom checkpoint hasRuntime).2.Tracks definition beginning := by
  rw [startFrom_of_begun tracks.begun]
  exact tracks.of_passes (definition_comparingName machine checkpoint)
    (worker_comparingName machine checkpoint) (passes_comparingName machine checkpoint)

include wellFormed

omit [Inspect τ] [DecidableEq τ] in
/-- At the end of a machine its worker moves by sound steps, and the end is noted. -/
theorem exists_moves_finish
    {worker : Worker κ}
    (isWorker : machine.worker = some worker) :
    ∃ done left between, worker.Moves definition machine.session done (left, between) ∧
      (machine.finish worker).session = between.note (.stopped left.metadata.processed) := by
  have consistent := tracks.isConsistent wellFormed isWorker
  obtain rfl := tracks.definition_eq
  unfold Machine.finish
  extract_lets queue count kept emptied discarded
  have passes : machine.session.Passes [] discarded := by
    have passes_emptied : machine.session.Passes [] emptied :=
      Session.passes_of_eq rfl rfl rfl
    simp only [discarded]
    split
    · exact passes_emptied
    · exact passes_emptied.then_nothing (Session.passes_note_of_none _ rfl)
  exact ⟨_, _, _, (Worker.moves_shutdown wellFormed consistent discarded).of_passes passes, rfl⟩

omit [Inspect τ] [DecidableEq τ] in
/-- The end of a machine leaves everything by sound steps. -/
theorem finish
    {worker : Worker κ}
    (isWorker : machine.worker = some worker) :
    (machine.finish worker).Tracks definition beginning := by
  obtain ⟨done, left, between, moves, session_eq⟩ :=
    tracks.exists_moves_finish wellFormed isWorker
  have stopped := between.passes_note_of_none
    (rfl : (Activity.stopped left.metadata.processed : Activity κ τ).completedStep? = none)
  rw [← session_eq] at stopped
  exact {
    definition_eq := tracks.definition_eq
    begun := by
      rw [stopped.phase_eq, moves.phase_eq]
      exact tracks.begun
    sound := by
      rw [stopped.completed_eq, List.append_nil, moves.completed_eq]
      refine tracks.sound.append ?_
      rw [← tracks.configuration_eq isWorker]
      exact moves.sound
    configuration_eq := by simp [Machine.finish]
    published_eq := by simp [Machine.finish]
    complete := by simp [Machine.finish] }

/-- The worker of a machine handles a command by sound steps. -/
theorem advance : machine.advance.Tracks definition beginning := by
  unfold Machine.advance
  split
  · exact tracks
  · rename_i worker isWorker
    split
    · exact tracks.finish wellFormed isWorker
    · split
      · rename_i event queue _
        have consistent := tracks.isConsistent wellFormed isWorker
        obtain ⟨done, moves, stays⟩ := Worker.moves_process wellFormed consistent event
          { machine.session with queue }
        have passes : machine.session.Passes [] { machine.session with queue } :=
          Session.passes_of_eq rfl rfl rfl
        rw [tracks.definition_eq]
        exact tracks.of_moves isWorker passes moves stays tracks.definition_eq.symm rfl rfl
      · exact tracks.of_passes rfl rfl (Session.passes_of_eq rfl rfl rfl)
      · exact tracks

/-- Whatever happens to a machine, its worker moves by sound steps. -/
theorem apply (operation : Operation κ τ ω) :
    (machine.apply operation).Tracks definition beginning := by
  cases operation with
  | start hasRuntime =>
      rw [Machine.apply, Machine.start, launch_of_begun tracks.begun]
      exact tracks
  | startFrom checkpoint hasRuntime => exact tracks.startFrom checkpoint hasRuntime
  | fire event => exact tracks.of_passes rfl rfl (machine.session.passes_fire event)
  | settle =>
      rw [Machine.apply, Machine.settle]
      split
      · exact tracks
      · exact tracks
      · exact tracks.of_passes rfl rfl (Session.passes_of_eq rfl rfl rfl)
  | requestStop =>
      rw [Machine.apply, Machine.requestStop]
      split
      · exact tracks
      · exact tracks
      · exact tracks.of_unchanged rfl rfl (by simp) rfl rfl (List.suffix_refl _)
  | advance => exact tracks.advance wellFormed
  | deposit =>
      exact tracks.of_passes rfl rfl (Session.passes_of_eq rfl rfl rfl)
  | change world =>
      exact tracks.of_passes rfl rfl (Session.passes_of_eq rfl rfl rfl)
  | pass clock =>
      exact tracks.of_passes rfl rfl (Session.passes_of_eq rfl rfl rfl)

/-- Whatever happens to a machine in a run, its worker moves by sound steps. -/
theorem perform (operations : List (Operation κ τ ω)) :
    (machine.perform operations).Tracks definition beginning := by
  induction operations generalizing machine with
  | nil => exact tracks
  | cons operation operations inductionHypothesis =>
      exact inductionHypothesis (tracks.apply wellFormed operation)

end Tracks

/-! ## Beginnings -/

/-- The first moves of a worker lead away from the origin. -/
theorem tracks_of_first_moves
    {worker : Worker κ}
    {session : Session κ τ ω}
    {done : List Step}
    {moved : Worker κ × Session κ τ ω}
    (atOrigin : worker.configuration = beginning.origin definition.graph)
    (running : session.phase ≠ .created)
    (nothing : session.completedSteps = [])
    (moves : worker.Moves definition session done moved)
    (complete : beginning.IsComplete definition.graph → moved.2.IsUnfailing →
      moved.1.configuration.IsComplete definition.graph)
    (definition_eq : machine.definition = definition)
    (worker_eq : machine.worker = some moved.1)
    (session_eq : machine.session = moved.2) :
    machine.Tracks definition beginning where
  definition_eq := definition_eq
  begun := by
    rw [session_eq, moves.phase_eq]
    exact running
  sound := by
    rw [session_eq, moves.completed_eq, nothing, List.nil_append, ← atOrigin]
    exact moves.sound
  configuration_eq := by
    intro other isOther
    rw [worker_eq] at isOther
    cases isOther
    rw [session_eq, moves.completed_eq, nothing, List.nil_append, ← atOrigin,
      moves.configuration_eq]
  published_eq := by
    intro other isOther
    rw [worker_eq] at isOther
    cases isOther
    rw [session_eq, moves.published_eq]
  complete := by
    intro other isOther isComplete unfailing
    rw [worker_eq] at isOther
    cases isOther
    rw [session_eq] at unfailing
    exact complete isComplete unfailing

/-- A machine that has begun tracks its beginning. -/
theorem tracks_begin
    (wellFormed : definition.IsWellFormed)
    {clock : Timestamp}
    {world : ω}
    (accepted : (Machine.new definition clock world).begin beginning = (.ok (), machine)) :
    machine.Tracks definition beginning := by
  cases beginning with
  | start =>
      rw [begin, start, launch_of_created rfl] at accepted
      obtain ⟨_, rfl⟩ := Prod.mk.inj accepted
      have atOrigin : (Machine.new definition clock world).freshWorker.configuration =
          Configuration.empty definition.graph.size := rfl
      obtain ⟨done, moves, complete⟩ := Worker.moves_enterInitial wellFormed atOrigin
        { Session.initial definition.settings clock world with phase := .running, number := 0 }
      refine tracks_of_first_moves atOrigin (by simp) rfl moves (fun _ unfailing => ?_) rfl rfl
        rfl
      exact complete (unfailing.of_suffix (List.suffix_cons _ _))
  | restore checkpoint =>
      obtain ⟨configuration, restored⟩ :=
        (startFrom_accepts_iff rfl).mp (congrArg Prod.fst accepted)
      rw [begin, startFrom_of_created rfl restored] at accepted
      obtain ⟨_, rfl⟩ := Prod.mk.inj accepted
      have atOrigin : configuration = (Beginning.restore checkpoint).origin definition.graph := by
        rw [Beginning.origin]
        change configurationOf definition.graph checkpoint = .ok configuration at restored
        rw [restored]
        rfl
      let compared := (Machine.new definition clock world).comparingName checkpoint
      let restoredWorker : Worker κ := ⟨configuration, checkpoint.history, checkpoint.metadata⟩
      let session : Session κ τ ω :=
        { compared.session with phase := .running, number := checkpoint.metadata.count }
      have moves : restoredWorker.Moves definition session []
          (restoredWorker, restoredWorker.publish definition (session.note .restored)) :=
        Worker.moves_of_publish trivial rfl (Session.passes_note_of_none _ rfl)
          (Session.Passes.refl _)
      have running : session.phase ≠ .created := by simp [session]
      have nothing : session.completedSteps = [] :=
        ((Machine.new definition clock world).passes_comparingName checkpoint).completed_eq
      exact tracks_of_first_moves atOrigin running nothing moves
        (fun isComplete _ => isComplete configuration restored)
        ((Machine.new definition clock world).definition_comparingName checkpoint) rfl rfl

end Machine

/-! ## Every moment of a run -/

namespace Configuration

/-- A leaf of a complete configuration has no children. -/
theorem IsComplete.childrenOf_of_isLeaf
    {graph : Graph κ}
    {configuration : Configuration}
    (complete : configuration.IsComplete graph)
    (forest : graph.IsForest)
    {state : Nat}
    (isLeaf : configuration.isLeaf graph state = true) :
    graph.childrenOf state = [] := by
  obtain ⟨active, childless⟩ := (isLeaf_iff forest).mp isLeaf
  cases regions_eq : graph.regionsOf state with
  | nil => rw [Graph.childrenOf, regions_eq, List.flatMap_nil]
  | cons region regions =>
      have member : region ∈ graph.regionsOf state := by
        rw [regions_eq]
        exact List.mem_cons_self
      obtain ⟨child, ⟨listed, childActive⟩, _⟩ := complete.region_filled active member
      obtain ⟨index, place⟩ := List.mem_iff_getElem?.mp member
      have below := ((forest.mem_children_iff place).mp listed).1
      rw [childless child below] at childActive
      contradiction

end Configuration

namespace Run

variable
  [DecidableEq κ]
  [StateKey κ]
  [DecidableEq τ]
  [Inspect τ]
  {definition : Definition κ τ ω}

/-- The configuration at a moment of a run, which is given by what happened until then. -/
def configurationAt (run : Run definition) (moment : List (Activity κ τ)) : Configuration :=
  (run.beginning.origin definition.graph).after (completedSteps moment)

/-- The machine of a run tracks the beginning of the run. -/
theorem tracks
    (run : Run definition)
    (wellFormed : definition.IsWellFormed) :
    run.machine.Tracks definition run.beginning :=
  (Machine.tracks_begin wellFormed run.accepted).perform wellFormed run.operations

/-- In every run of a machine that has been built the configuration is consistent at every
moment, and the configuration of the worker is the one of the latest moment. -/
theorem isConsistent_configurationAt
    {draft : MachineDraft κ τ ω}
    (built : draft.build = .ok definition)
    (run : Run definition) :
    (∀ moment, moment <+: run.activities →
        (run.configurationAt moment).IsConsistent definition.graph) ∧
      ∀ worker, run.machine.worker = some worker →
        worker.configuration = run.configurationAt run.activities := by
  have wellFormed := Definition.isWellFormed_of_build built
  have tracks := run.tracks wellFormed
  constructor
  · intro moment earlier
    exact tracks.sound.isConsistent wellFormed.forest
      (run.beginning.isConsistent_origin wellFormed.forest) (completedSteps_isPrefix earlier)
  · exact fun worker isWorker => tracks.configuration_eq isWorker

/-- When the second of two exits breaks off, the transition ends half-way: one region has
been left, and nothing has been entered. -/
theorem isConsistent_configurationAt_crossing :
    (crossingDraft ["mute"]).build = .ok (crossing ["mute"]) ∧
      completedSteps (crossingRun ["mute"]).activities =
        [.enter 0, .enter 1, .enter 3, .exit 1] ∧
      (∀ moment, moment <+: (crossingRun ["mute"]).activities →
        ((crossingRun ["mute"]).configurationAt moment).IsConsistent
          (crossing ["mute"]).graph) ∧
      ∀ worker, (crossingRun ["mute"]).machine.worker = some worker →
        worker.configuration =
          (crossingRun ["mute"]).configurationAt (crossingRun ["mute"]).activities := by
  have built : (crossingDraft ["mute"]).build = .ok (crossing ["mute"]) := by cbv
  exact ⟨built, by cbv, isConsistent_configurationAt built (crossingRun ["mute"])⟩

/-- In a run without a failed step that begins with a start or with a checkpoint of a
complete configuration, the configuration is complete whenever the worker has handled a
command, and the machine shows states without children. -/
theorem isComplete_of_isUnfailing
    {draft : MachineDraft κ τ ω}
    (built : draft.build = .ok definition)
    (run : Run definition)
    (complete : run.beginning.IsComplete definition.graph)
    (unfailing : run.machine.session.IsUnfailing)
    {worker : Worker κ}
    (isWorker : run.machine.worker = some worker) :
    worker.configuration.IsComplete definition.graph ∧
      ∀ key ∈ run.machine.currentStates, ∃ state,
        definition.graph.key? state = some key ∧
          worker.configuration.isActive state = true ∧ definition.graph.childrenOf state = [] := by
  have wellFormed := Definition.isWellFormed_of_build built
  have tracks := run.tracks wellFormed
  have isComplete := tracks.complete isWorker complete unfailing
  refine ⟨isComplete, fun key member => ?_⟩
  rw [Machine.currentStates, Machine.snapshot, tracks.published_eq isWorker] at member
  obtain ⟨state, isLeaf, hasKey⟩ := List.mem_filterMap.mp member
  have isLeaf := (List.mem_filter.mp isLeaf).2
  exact ⟨state, hasKey, ((Configuration.isLeaf_iff wellFormed.forest).mp isLeaf).1,
    isComplete.childrenOf_of_isLeaf wellFormed.forest isLeaf⟩

/-- Without a break-off the transition is completed, and the region that was left falls
back to its initial child. -/
theorem isComplete_of_isUnfailing_crossing :
    (crossingDraft []).build = .ok (crossing []) ∧
      (crossingRun []).beginning.IsComplete (crossing []).graph ∧
      (crossingRun []).machine.session.IsUnfailing ∧
      (crossingRun []).machine.currentStates = ["red", "loud"] ∧
      ∃ worker, (crossingRun []).machine.worker = some worker ∧
        worker.configuration.IsComplete (crossing []).graph ∧
          ∀ key ∈ (crossingRun []).machine.currentStates, ∃ state,
            (crossing []).graph.key? state = some key ∧
              worker.configuration.isActive state = true ∧
                (crossing []).graph.childrenOf state = [] := by
  have built : (crossingDraft []).build = .ok (crossing []) := by cbv
  have complete : (crossingRun []).beginning.IsComplete (crossing []).graph := trivial
  have unfailing : (crossingRun []).machine.session.IsUnfailing := by decide +kernel
  have working : (crossingRun []).machine.worker.isSome := by cbv
  obtain ⟨worker, isWorker⟩ := Option.isSome_iff_exists.mp working
  exact ⟨built, complete, unfailing, by cbv, worker, isWorker,
    isComplete_of_isUnfailing built (crossingRun []) complete unfailing isWorker⟩

end Run
end Statechart
