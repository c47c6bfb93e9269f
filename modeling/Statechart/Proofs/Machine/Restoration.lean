import Statechart.Proofs.Configuration.LeafLists
import Statechart.Proofs.Machine.Tracking

/-!
# Starting from a checkpoint

A machine that has not begun accepts a checkpoint if and only if the keys in it are those
of the leaves of a consistent configuration. It begins in this configuration without
running a callback. What a run shows of itself are always the leaves of a configuration
that it has reached, after failures and after the end as well, so every checkpoint of a
run is accepted and leads back to where it was taken.
-/

namespace Statechart

variable {κ τ ω : Type}

namespace Machine

variable [DecidableEq κ] [StateKey κ]

/-! ## Accepted checkpoints -/

/-- A machine has begun in the configuration of a checkpoint, and has done nothing else. -/
structure BeginsAt
    (machine : Machine κ τ ω)
    (checkpoint : Checkpoint κ)
    (configuration : Configuration)
    (after : Machine κ τ ω) : Prop where
  /-- The worker has the configuration, and the rest of what the checkpoint holds. -/
  worker_eq : after.worker = some ⟨configuration, checkpoint.history, checkpoint.metadata⟩
  /-- The machine shows the leaves. -/
  active_eq : after.currentStates =
    machine.definition.graph.keys (configuration.leaves machine.definition.graph)
  /-- The machine runs. -/
  running : after.session.phase = .running
  /-- No callback has run that could have changed the state of the client. -/
  world_eq : after.session.world = machine.session.world
  /-- Besides comparing names the machine has only taken over the position and has
  published it. -/
  activities_eq : after.session.activities =
    (machine.comparingName checkpoint).session.activities ++
      [.restored, .published after.session.published]

variable {machine : Machine κ τ ω} {checkpoint : Checkpoint κ} {configuration : Configuration}

/-- A machine that has not begun begins in the configuration that a checkpoint stands
for. -/
theorem beginsAt_of_configurationOf
    (created : machine.session.phase = .created)
    (restored : configurationOf machine.definition.graph checkpoint = .ok configuration) :
    ∃ after, machine.startFrom checkpoint true = (.ok (), after) ∧
      machine.BeginsAt checkpoint configuration after := by
  refine ⟨_, startFrom_of_created created restored, ?_⟩
  exact {
    worker_eq := rfl
    active_eq := by
      simp only [definition_comparingName]
      rfl
    running := rfl
    world_eq := by
      rcases machine.comparingName_cases checkpoint with same | noted
      · simp only [same]
        rfl
      · simp only [noted]
        rfl
    activities_eq := by
      simp only [Worker.publish, Session.publish, Session.note, Session.activities,
        List.reverse_cons, List.append_assoc]
      rfl }

/-- A checkpoint with an unknown key stands for nothing. -/
theorem configurationOf_of_unknown
    {graph : Graph κ}
    (unknown : ¬∀ key ∈ checkpoint.active, (graph.indexOf? key).isSome = true) :
    ∃ key ∈ checkpoint.active, graph.indexOf? key = none ∧
      configurationOf graph checkpoint = .error (.unknownState (StateKey.name key)) := by
  unfold configurationOf
  cases found : checkpoint.active.find? fun key => (graph.indexOf? key).isNone with
  | none =>
      rw [List.find?_eq_none] at found
      exact absurd (fun key member => by simpa [Option.isSome_iff_ne_none] using found key member)
        unknown
  | some key =>
      have isUnknown := List.find?_some found
      exact ⟨key, List.mem_of_find?_eq_some found, Option.isNone_iff_eq_none.mp isUnknown, rfl⟩

/-- A checkpoint whose keys contradict each other stands for nothing. -/
theorem configurationOf_of_error
    {graph : Graph κ}
    (known : ∀ key ∈ checkpoint.active, (graph.indexOf? key).isSome = true)
    {state : Nat}
    (refused : Configuration.ofLeaves graph (checkpoint.active.filterMap graph.indexOf?) =
      .error state) :
    configurationOf graph checkpoint =
      .error (.inconsistentConfiguration (graph.nameOf state)) := by
  have found : (checkpoint.active.find? fun key => (graph.indexOf? key).isNone) = none := by
    rw [List.find?_eq_none]
    intro key member
    simpa [Option.isSome_iff_ne_none] using known key member
  rw [configurationOf, found]
  simp only [refused]
  rfl

omit [StateKey κ] in
/-- The keys of a checkpoint stand for states of the graph. -/
theorem lt_size_of_mem_listed
    {graph : Graph κ}
    {keys : List κ}
    {state : Nat}
    (member : state ∈ keys.filterMap graph.indexOf?) :
    state < graph.size := by
  obtain ⟨key, _, found⟩ := List.mem_filterMap.mp member
  exact (Array.findIdx?_eq_some_iff_getElem.mp found).1

/-- How a machine that has not begun answers a checkpoint. -/
inductive Answers (machine : Machine κ τ ω) (checkpoint : Checkpoint κ) : Prop
  /-- The keys are those of the leaves of a consistent configuration, and the machine
  begins in it. -/
  | accepted
      (known : ∀ key ∈ checkpoint.active, (machine.definition.graph.indexOf? key).isSome = true)
      (configuration : Configuration)
      (hasLeaves : configuration.HasLeaves machine.definition.graph
        (checkpoint.active.filterMap machine.definition.graph.indexOf?))
      (after : Machine κ τ ω)
      (answer : machine.startFrom checkpoint true = (.ok (), after))
      (begins : machine.BeginsAt checkpoint configuration after)
  /-- The answer names a key that no state has, and the machine has not begun. -/
  | unknown
      (key : κ)
      (listed : key ∈ checkpoint.active)
      (unknown : machine.definition.graph.indexOf? key = none)
      (answer : machine.startFrom checkpoint true =
        (.error (.checkpoint (.unknownState (StateKey.name key))),
          machine.comparingName checkpoint))
  /-- The keys are those of the leaves of no consistent configuration. The answer names a
  state, and the machine has not begun. -/
  | inconsistent
      (known : ∀ key ∈ checkpoint.active, (machine.definition.graph.indexOf? key).isSome = true)
      (without : ∀ configuration : Configuration,
        ¬configuration.HasLeaves machine.definition.graph
          (checkpoint.active.filterMap machine.definition.graph.indexOf?))
      (state : Nat)
      (inside : state < machine.definition.graph.size)
      (answer : machine.startFrom checkpoint true =
        (.error (.checkpoint
            (.inconsistentConfiguration (machine.definition.graph.nameOf state))),
          machine.comparingName checkpoint))

/-- A machine that has not begun accepts exactly the checkpoints with the leaves of a
consistent configuration. -/
theorem answers_of_created
    (forest : machine.definition.graph.IsForest)
    (created : machine.session.phase = .created)
    (checkpoint : Checkpoint κ) :
    machine.Answers checkpoint := by
  let graph := machine.definition.graph
  let listed := checkpoint.active.filterMap graph.indexOf?
  have inside : ∀ state ∈ listed, state < graph.size := fun _ => lt_size_of_mem_listed
  by_cases known : ∀ key ∈ checkpoint.active, (graph.indexOf? key).isSome = true
  · cases outcome : Configuration.ofLeaves graph listed with
    | ok configuration =>
        have restored : configurationOf graph checkpoint = .ok configuration :=
          configurationOf_eq_ok_iff.mpr ⟨known, outcome⟩
        obtain ⟨after, started, begins⟩ := beginsAt_of_configurationOf created restored
        exact .accepted known configuration
          (Configuration.hasLeaves_of_ofLeaves forest outcome) after started begins
    | error state =>
        have without (configuration : Configuration) :
            ¬configuration.HasLeaves graph listed := by
          intro hasLeaves
          rw [(Configuration.ofLeaves_eq_ok_iff_hasLeaves forest inside).mpr hasLeaves] at outcome
          contradiction
        refine .inconsistent known without state
          (Configuration.lt_size_of_ofLeaves_eq_error inside outcome) ?_
        rw [startFrom_eq, configurationOf_of_error known outcome]
  · obtain ⟨key, member, unknown, refused⟩ := configurationOf_of_unknown known
    refine .unknown key member unknown ?_
    rw [startFrom_eq, refused]

/-! ## What a machine shows -/

section Shows

variable {definition : Definition κ τ ω} {beginning : Beginning κ}

/-- The keys that a machine shows as active are those of the leaves of the configuration
that its completed steps have led to. -/
def ShowsLeaves
    (definition : Definition κ τ ω)
    (beginning : Beginning κ)
    (machine : Machine κ τ ω) : Prop :=
  machine.currentStates =
    definition.graph.keys
      (((beginning.origin definition.graph).after machine.session.completedSteps).leaves
        definition.graph)

/-- What completes no step and publishes nothing does not matter. -/
theorem ShowsLeaves.of_unchanged
    {after : Machine κ τ ω}
    (shows : machine.ShowsLeaves definition beginning)
    (published_eq : after.session.published = machine.session.published)
    (completed_eq : after.session.completedSteps = machine.session.completedSteps) :
    after.ShowsLeaves definition beginning := by
  rw [ShowsLeaves, currentStates, snapshot, completed_eq, published_eq]
  exact shows

/-- What callers and callbacks do to the session does not matter. -/
theorem ShowsLeaves.of_passes
    {after : Machine κ τ ω}
    (shows : machine.ShowsLeaves definition beginning)
    (passes : machine.session.Passes [] after.session) :
    after.ShowsLeaves definition beginning :=
  shows.of_unchanged passes.published_eq (passes.completed_eq.trans (List.append_nil _))

namespace Tracks

/-- A machine with a worker shows the leaves of its worker. -/
theorem showsLeaves
    (tracks : machine.Tracks definition beginning)
    (working : machine.worker.isSome = true) :
    machine.ShowsLeaves definition beginning := by
  obtain ⟨worker, isWorker⟩ := Option.isSome_iff_exists.mp working
  rw [ShowsLeaves, currentStates, snapshot, tracks.published_eq isWorker,
    ← tracks.configuration_eq isWorker]
  rfl

variable
  [DecidableEq τ]
  [Inspect τ]
  (tracks : machine.Tracks definition beginning)
  (wellFormed : definition.IsWellFormed)

include tracks wellFormed

omit [DecidableEq τ] [Inspect τ] in
/-- At its end a machine shows what its last steps have left. -/
theorem showsLeaves_finish
    {worker : Worker κ}
    (isWorker : machine.worker = some worker) :
    (machine.finish worker).ShowsLeaves definition beginning := by
  obtain ⟨done, left, between, moves, session_eq⟩ :=
    tracks.exists_moves_finish wellFormed isWorker
  rw [ShowsLeaves, currentStates, snapshot, session_eq, Session.completedSteps_note,
    moves.completed_eq]
  have configuration_eq : (beginning.origin definition.graph).after
      (machine.session.completedSteps ++ done) = left.configuration := by
    rw [Configuration.after_append, ← tracks.configuration_eq isWorker, moves.configuration_eq]
  rw [show (between.note (.stopped left.metadata.processed)).published = between.published from
    rfl, moves.published_eq]
  simp only [Activity.completedStep?, Option.toList_none, List.append_nil, configuration_eq]
  rfl

/-- Whatever happens to a machine, it shows the leaves of the configuration that its
completed steps have led to. -/
theorem showsLeaves_apply
    (shows : machine.ShowsLeaves definition beginning)
    (operation : Operation κ τ ω) :
    (machine.apply operation).ShowsLeaves definition beginning := by
  cases operation with
  | start hasRuntime =>
      rw [Machine.apply, Machine.start, launch_of_begun tracks.begun]
      exact shows
  | startFrom checkpoint hasRuntime =>
      rw [Machine.apply, startFrom_of_begun tracks.begun]
      exact shows.of_passes (passes_comparingName machine checkpoint)
  | fire event => exact shows.of_passes (machine.session.passes_fire event)
  | settle =>
      rw [Machine.apply, Machine.settle]
      split
      · exact shows
      · exact shows
      · exact shows.of_unchanged rfl rfl
  | requestStop =>
      rw [Machine.apply, Machine.requestStop]
      split
      · exact shows
      · exact shows
      · exact shows.of_unchanged rfl rfl
  | advance =>
      by_cases working : machine.advance.worker.isSome = true
      · exact (tracks.advance wellFormed).showsLeaves working
      · rw [Machine.apply]
        unfold Machine.advance at working ⊢
        cases isWorker : machine.worker with
        | none => exact shows
        | some worker =>
            simp only [isWorker] at working ⊢
            split
            · exact tracks.showsLeaves_finish wellFormed isWorker
            · rename_i running
              rw [if_neg running] at working
              split at working
              · exact absurd rfl working
              · exact absurd rfl working
              · exact absurd (by rw [isWorker]; rfl) working
  | deposit => exact shows.of_unchanged rfl rfl
  | change world => exact shows.of_unchanged rfl rfl
  | pass clock => exact shows.of_unchanged rfl rfl

/-- In a run a machine always shows the leaves of the configuration that its completed
steps have led to. -/
theorem showsLeaves_perform
    (shows : machine.ShowsLeaves definition beginning)
    (operations : List (Operation κ τ ω)) :
    (machine.perform operations).ShowsLeaves definition beginning := by
  induction operations generalizing machine with
  | nil => exact shows
  | cons operation operations inductionHypothesis =>
      exact inductionHypothesis (tracks.apply wellFormed operation)
        (tracks.showsLeaves_apply wellFormed shows operation)

end Tracks

end Shows

/-- A machine that has begun has a worker. -/
theorem isSome_worker_of_begin
    {definition : Definition κ τ ω}
    {clock : Timestamp}
    {world : ω}
    {beginning : Beginning κ}
    (accepted : (Machine.new definition clock world).begin beginning = (.ok (), machine)) :
    machine.worker.isSome = true := by
  cases beginning with
  | start =>
      rw [begin, start, launch_of_created rfl] at accepted
      obtain ⟨_, rfl⟩ := Prod.mk.inj accepted
      rfl
  | restore checkpoint =>
      obtain ⟨configuration, restored⟩ :=
        (startFrom_accepts_iff rfl).mp (congrArg Prod.fst accepted)
      rw [begin, startFrom_of_created rfl restored] at accepted
      obtain ⟨_, rfl⟩ := Prod.mk.inj accepted
      rfl

end Machine

/-! ## Every checkpoint of a run -/

/-- All lists of states of a graph are restored to what they are the leaves of, and no
others are restored. -/
structure Graph.RestoresLeaves (graph : Graph κ) : Prop where
  /-- A list is restored if and only if it can be a list of leaves. -/
  restored_iff {listed : List Nat} :
    (∀ state ∈ listed, state < graph.size) →
      ((∃ configuration, Configuration.ofLeaves graph listed = .ok configuration) ↔
        Configuration.IsLeafList graph listed)
  /-- A list can be a list of leaves if and only if it is one. -/
  exists_iff {listed : List Nat} :
    (∀ state ∈ listed, state < graph.size) →
      ((∃ configuration : Configuration, configuration.HasLeaves graph listed) ↔
        Configuration.IsLeafList graph listed)
  /-- A list is restored to the one configuration that has these leaves. -/
  restored_eq_iff {listed : List Nat} {configuration : Configuration} :
    (∀ state ∈ listed, state < graph.size) →
      (Configuration.ofLeaves graph listed = .ok configuration ↔
        configuration.HasLeaves graph listed)
  /-- The leaves of what has been restored are the listed states in the depth-first order,
  each of them once. -/
  leaves_eq {listed : List Nat} {configuration : Configuration} :
    Configuration.ofLeaves graph listed = .ok configuration →
      configuration.leaves graph = graph.preorder.filter (listed.contains ·) ∧
        (configuration.leaves graph).Nodup
  /-- Every consistent configuration is restored from its leaves. -/
  restored_leaves {configuration : Configuration} :
    configuration.IsConsistent graph →
      Configuration.ofLeaves graph (configuration.leaves graph) = .ok configuration

/-- A forest restores lists of leaves. -/
theorem Graph.IsForest.restoresLeaves
    {graph : Graph κ}
    (forest : graph.IsForest) :
    graph.RestoresLeaves where
  restored_iff := by
    intro listed inside
    constructor
    · rintro ⟨configuration, restored⟩
      exact (Configuration.hasLeaves_of_ofLeaves forest restored).isLeafList forest
    · exact fun isLeafList =>
        ⟨_, Configuration.ofLeaves_of_isLeafList forest inside isLeafList⟩
  exists_iff := by
    intro listed inside
    constructor
    · rintro ⟨configuration, hasLeaves⟩
      exact hasLeaves.isLeafList forest
    · exact fun isLeafList => ⟨_, Configuration.hasLeaves_of_ofLeaves forest
        (Configuration.ofLeaves_of_isLeafList forest inside isLeafList)⟩
  restored_eq_iff := Configuration.ofLeaves_eq_ok_iff_hasLeaves forest
  leaves_eq := by
    intro listed configuration restored
    exact ⟨(Configuration.hasLeaves_of_ofLeaves forest restored).leaves_eq forest,
      Configuration.nodup_leaves forest configuration⟩
  restored_leaves := fun consistent => consistent.ofLeaves_leaves forest

namespace Run

variable
  [DecidableEq κ]
  [StateKey κ]
  [DecidableEq τ]
  [Inspect τ]
  {definition : Definition κ τ ω}

/-- What a run shows at its end are the leaves of the configuration at the latest moment. -/
theorem currentStates_machine
    (run : Run definition)
    (wellFormed : definition.IsWellFormed) :
    run.machine.currentStates =
      definition.graph.keys
        ((run.configurationAt run.activities).leaves definition.graph) := by
  have tracks := Machine.tracks_begin wellFormed run.accepted
  exact tracks.showsLeaves_perform wellFormed
    (tracks.showsLeaves (Machine.isSome_worker_of_begin run.accepted)) run.operations

/-- Restoring a list of leaves gives the one consistent configuration that has these
leaves, and the configurations of all moments of all runs can be restored. A machine that
has not begun accepts a checkpoint of any of them and begins in it, and turns down those
checkpoints that have the leaves of no consistent configuration. -/
theorem restores_every_configuration
    {η : Type}
    {blueprint : Blueprint κ η}
    {graph : Graph κ}
    (validated : blueprint.validate = .ok graph)
    {draft : MachineDraft κ τ ω}
    (built : draft.build = .ok definition) :
    graph.RestoresLeaves ∧
      ∀ fresh : Machine κ τ ω, fresh.definition = definition → fresh.session.phase = .created →
        (∀ checkpoint, fresh.Answers checkpoint) ∧
          ∀ run : Run definition,
            (∀ moment, moment <+: run.activities → ∀ checkpoint : Checkpoint κ,
              checkpoint.active = definition.graph.keys
                ((run.configurationAt moment).leaves definition.graph) →
              ∃ after, fresh.startFrom checkpoint true = (.ok (), after) ∧
                fresh.BeginsAt checkpoint (run.configurationAt moment) after) ∧
              ∀ id, (run.machine.checkpoint id).active = definition.graph.keys
                ((run.configurationAt run.activities).leaves definition.graph) := by
  have wellFormed := Definition.isWellFormed_of_build built
  refine ⟨(blueprint.isForest_of_validate validated).restoresLeaves, ?_⟩
  rintro fresh rfl created
  refine ⟨fresh.answers_of_created wellFormed.forest created, fun run => ⟨?_, ?_⟩⟩
  · intro moment earlier checkpoint active_eq
    have consistent := (isConsistent_configurationAt built run).1 moment earlier
    exact Machine.beginsAt_of_configurationOf created
      (Machine.configurationOf_leaves wellFormed.forest consistent active_eq)
  · exact fun _ => run.currentStates_machine wellFormed

/-- When an exit breaks off, one region stays empty. The checkpoint taken then leads back to
that configuration, while two states of one region contradict each other. -/
theorem restores_every_configuration_crossing :
    (Blueprint.twoRegions Unit).validate = .ok (Blueprint.twoRegions Unit).graph ∧
      (crossingDraft ["mute"]).build = .ok (crossing ["mute"]) ∧
      (∀ configuration, Configuration.ofLeaves (Blueprint.twoRegions Unit).graph [4, 2] =
          .ok configuration ↔
        configuration.HasLeaves (Blueprint.twoRegions Unit).graph [4, 2]) ∧
      Configuration.ofLeaves (Blueprint.twoRegions Unit).graph [1, 2] = .error 0 ∧
      ((crossingRun ["mute"]).machine.checkpoint .nil).active = ["mute"] ∧
      ∃ after,
        (Machine.new (crossing ["mute"]) midnight ()).startFrom
            ((crossingRun ["mute"]).machine.checkpoint .nil) true = (.ok (), after) ∧
          (Machine.new (crossing ["mute"]) midnight ()).BeginsAt
            ((crossingRun ["mute"]).machine.checkpoint .nil)
            ((crossingRun ["mute"]).configurationAt (crossingRun ["mute"]).activities) after := by
  have validated := Blueprint.validate_twoRegions Unit
  have built : (crossingDraft ["mute"]).build = .ok (crossing ["mute"]) := by cbv
  obtain ⟨restores, begins⟩ := restores_every_configuration validated built
  obtain ⟨_, runs⟩ := begins (Machine.new (crossing ["mute"]) midnight ()) rfl rfl
  obtain ⟨moments, own⟩ := runs (crossingRun ["mute"])
  exact ⟨validated, built, fun _ => restores.restored_eq_iff (by decide +kernel), by cbv, by cbv,
    moments _ (List.prefix_refl _) _ (own .nil)⟩

end Run
end Statechart
