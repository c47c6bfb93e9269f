import Statechart.Proofs.Checked.Processing
import Statechart.Proofs.Machine.Tracking

/-!
# Nothing undefined is met

A definition that has been built holds sound entries only, so every transition that leaves
states has a plan, and the way of the plan begins below the domain. In whatever consistent
configuration a worker is, it finds every state, region, flag, mark and row that it reads, and
none of its walks and descents takes more steps than there are states. The configurations of a
run are consistent.
-/

namespace Statechart

variable {κ τ ω : Type}

namespace Plan

variable
  {graph : Graph κ}
  (forest : graph.IsForest)
  {source target : Nat}
  (sameTree : graph.rootOf source = graph.rootOf target)

include forest sameTree

/-- Only a transition to the root of its tree has no domain. -/
theorem domain?_eq_none_iff :
    domain? graph source target = none ↔ target = graph.rootOf source := by
  rcases domain?_cases forest sameTree with
    ⟨noDomain, isRoot, _⟩ | ⟨domain, branch, hasDomain, below, within, _⟩
  · rw [sameTree, forest.rootOf_of_root isRoot]
    exact iff_of_true noDomain rfl
  · refine iff_of_false (by simp [hasDomain]) fun isRoot => ?_
    have nothingAbove := forest.parentOf_rootOf source
    rw [← isRoot] at nothingAbove
    rw [forest.eq_of_within_root nothingAbove within, nothingAbove] at below
    contradiction

/-- The way down begins with a child of the domain, or with the root of the tree. -/
theorem exists_pathBelow_domain :
    ∃ first rest, pathBelow graph (domain? graph source target) target = first :: rest ∧
      graph.parentOf first = domain? graph source target ∧
        (domain? graph source target = none → first = graph.rootOf source) := by
  rcases domain?_cases forest sameTree with
    ⟨noDomain, _, _⟩ | ⟨domain, branch, hasDomain, below, within, _⟩
  · rw [noDomain, pathBelow_none forest, ← sameTree]
    exact ⟨_, _, rfl, forest.parentOf_rootOf source, fun _ => rfl⟩
  · rw [hasDomain, pathBelow_of_branch forest below within]
    exact ⟨_, _, rfl, below, nofun⟩

end Plan

/-! ## What is promised -/

/-- An external transition between two states is well planned: it has no domain only if it leads
to the root of its tree, and its way begins with a child of the domain or with that root. -/
structure Plan.HasWay (graph : Graph κ) (source target : Nat) : Prop where
  /-- Only a transition to the root of its tree has no domain. -/
  domain_none_iff : Plan.domain? graph source target = none ↔ target = graph.rootOf source
  /-- The way has a first state, which lies directly below the domain. -/
  path :
    ∃ first rest, Plan.pathBelow graph (Plan.domain? graph source target) target = first :: rest ∧
      graph.parentOf first = Plan.domain? graph source target ∧
        (Plan.domain? graph source target = none → first = graph.rootOf source)

namespace Definition

variable [DecidableEq κ] [StateKey κ] [DecidableEq τ] [Inspect τ]

/-- In a configuration everything that a worker does ends, each walk and each descent within a
bound, and finds whatever it reads. -/
structure IsSafeIn
    (definition : Definition κ τ ω)
    (bound : Nat)
    (configuration : Configuration) : Prop where
  /-- The active leaves are found. -/
  leaves :
    Checked.leaves definition.graph configuration =
      some (configuration.leaves definition.graph)
  /-- The transition for an event is searched. -/
  select (event : Event τ) (session : Session κ τ ω) :
    Checked.select definition bound (Rows.ofTable definition.graph definition.table) event
        (configuration.leaves definition.graph) session =
      some (definition.choose event
        (definition.table.candidatesFrom definition.graph
          (configuration.leaves definition.graph) event.trigger) session)
  /-- Transitions that leave states are planned. -/
  external {entry : Entry κ τ ω} {target : Nat} :
    entry ∈ definition.table.entries → entry.kind = .external → entry.target = some target →
      Checked.external definition.graph configuration bound entry.source target =
        some (Plan.external definition.graph configuration entry.source target)
  /-- The end is planned. -/
  shutdown :
    Checked.shutdown definition.graph configuration bound =
      some (Plan.shutdown definition.graph configuration)
  /-- An event is processed to its end. -/
  process {worker : Worker κ} (event : Event τ) (session : Session κ τ ω) :
    worker.configuration = configuration →
      Checked.process definition bound (Rows.ofTable definition.graph definition.table) worker
          event session = some (worker.process definition event session)
  /-- Everything is left at the end. -/
  stop {worker : Worker κ} (session : Session κ τ ω) :
    worker.configuration = configuration →
      Checked.stop definition bound worker session = some (worker.shutdown definition session)

/-- Nothing undefined is met by a machine with a definition, and each of its walks and descents
ends within a bound. -/
structure IsSafe (definition : Definition κ τ ω) (bound : Nat) : Prop where
  /-- Every entry can be carried out. -/
  sound {entry : Entry κ τ ω} :
    entry ∈ definition.table.entries → entry.IsSound definition.graph
  /-- External entries are planned. -/
  way {entry : Entry κ τ ω} {target : Nat} :
    entry ∈ definition.table.entries → entry.kind = .external → entry.target = some target →
      Plan.HasWay definition.graph entry.source target
  /-- The start is planned. -/
  initial : Checked.initial definition.graph bound = some (Plan.initial definition.graph)
  /-- The first configuration is entered. -/
  start {worker : Worker κ} (session : Session κ τ ω) :
    worker.configuration = .empty definition.graph.size →
      Checked.enterInitial definition bound worker session =
        some (worker.enterInitial definition session)
  /-- Nothing undefined is met in a consistent configuration. -/
  safeIn {configuration : Configuration} :
    configuration.IsConsistent definition.graph → definition.IsSafeIn bound configuration

variable {definition : Definition κ τ ω}

section Safe

variable
  (wellFormed : definition.IsWellFormed)
  (fits : definition.table.Fits definition.graph)
  {bound : Nat}
  (enough : definition.graph.size ≤ bound)

include wellFormed fits enough

theorem isSafeIn
    {configuration : Configuration}
    (consistent : configuration.IsConsistent definition.graph) :
    definition.IsSafeIn bound configuration where
  leaves := Checked.leaves_eq wellFormed.forest consistent.flags_size
  select event session := by
    refine Checked.select_eq wellFormed.forest enough (fun leaf listed => ?_) session
    exact wellFormed.forest.mem_preorder_iff.mp (List.mem_filter.mp listed).1
  external := by
    intro entry target listed isExternal hasTarget
    have sound := fits.isSound listed
    exact Checked.external_eq wellFormed.forest enough sound.source_lt
      (sound.target_lt hasTarget) (wellFormed.sameTree listed hasTarget) consistent.flags_size
  shutdown := Checked.shutdown_eq wellFormed.forest consistent.flags_size enough
  process := by
    rintro worker event session rfl
    exact Checked.process_eq wellFormed enough fits consistent event session
  stop := by
    rintro worker session rfl
    exact Checked.stop_eq wellFormed.forest enough consistent session

theorem isSafe : definition.IsSafe bound where
  sound := fits.isSound
  way := by
    intro entry target listed _ hasTarget
    have sameTree := wellFormed.sameTree listed hasTarget
    exact ⟨Plan.domain?_eq_none_iff wellFormed.forest sameTree,
      Plan.exists_pathBelow_domain wellFormed.forest sameTree⟩
  initial := Checked.initial_eq wellFormed.forest enough
  start := by
    intro worker session atEmpty
    refine Checked.enterInitial_eq wellFormed.forest ?_ enough session
    rw [atEmpty, (Configuration.isConsistent_empty definition.graph).flags_size]
  safeIn := isSafeIn wellFormed fits enough

end Safe

omit [DecidableEq τ] in
/-- The table of what has been built holds the transitions of its draft. -/
theorem table_of_build
    {draft : MachineDraft κ τ ω}
    (built : draft.build = .ok definition) :
    Table.build definition.graph draft.transitions = .ok definition.table := by
  unfold MachineDraft.build at built
  split at built
  · contradiction
  obtain ⟨graph, _, built⟩ := bind_eq_ok.mp built
  obtain ⟨table, tabled, built⟩ := bind_eq_ok.mp built
  cases built
  exact tabled

end Definition

namespace Run

variable [DecidableEq κ] [StateKey κ] [DecidableEq τ] [Inspect τ]

/-- A machine that has been built meets nothing undefined, in no configuration of any run, and
none of its walks takes more steps than there are states. The rows that it searches are built of
the transitions of its draft. -/
theorem isSafe_of_build
    {draft : MachineDraft κ τ ω}
    {definition : Definition κ τ ω}
    (built : draft.build = .ok definition) :
    Rows.build definition.graph draft.transitions =
        .ok (Rows.ofTable definition.graph definition.table) ∧
      ∀ bound ≥ definition.graph.size,
        definition.IsSafe bound ∧
        ∀ run : Run definition,
          (∀ moment, moment <+: run.activities →
            definition.IsSafeIn bound (run.configurationAt moment)) ∧
          ∀ worker, run.machine.worker = some worker →
            definition.IsSafeIn bound worker.configuration := by
  have wellFormed := Definition.isWellFormed_of_build built
  have tabled := Definition.table_of_build built
  have fits := Table.fits_of_build tabled
  refine ⟨?_, fun bound enough =>
    ⟨Definition.isSafe wellFormed fits enough, fun run => ?_⟩⟩
  · rw [Rows.build_eq, tabled]
    rfl
  · have tracks := run.tracks wellFormed
    have consistent {moment : List (Activity κ τ)} (earlier : moment <+: run.activities) :
        (run.configurationAt moment).IsConsistent definition.graph :=
      tracks.sound.isConsistent wellFormed.forest
        (run.beginning.isConsistent_origin wellFormed.forest) (completedSteps_isPrefix earlier)
    constructor
    · exact fun moment earlier =>
        Definition.isSafeIn wellFormed fits enough (consistent earlier)
    · intro worker isWorker
      have atEnd : worker.configuration = run.configurationAt run.activities :=
        tracks.configuration_eq isWorker
      rw [atEnd]
      exact Definition.isSafeIn wellFormed fits enough (consistent List.prefix_rfl)

/-- After an exit that broke off one region is empty, and the leaf of the other one is found.
As many steps as there are states are enough for every walk. -/
theorem isSafe_of_build_crossing :
    (crossingDraft ["mute"]).build = .ok (crossing ["mute"]) ∧
      (crossing ["mute"]).IsSafe (crossing ["mute"]).graph.size ∧
      (∀ moment, moment <+: (crossingRun ["mute"]).activities →
        (crossing ["mute"]).IsSafeIn (crossing ["mute"]).graph.size
          ((crossingRun ["mute"]).configurationAt moment)) ∧
      Checked.leaves (crossing ["mute"]).graph
        ((crossingRun ["mute"]).configurationAt (crossingRun ["mute"]).activities) =
          some [3] := by
  have built : (crossingDraft ["mute"]).build = .ok (crossing ["mute"]) := by cbv
  obtain ⟨_, bounded⟩ := isSafe_of_build built
  obtain ⟨safe, inRuns⟩ := bounded (crossing ["mute"]).graph.size le_rfl
  have inRun := (inRuns (crossingRun ["mute"])).1
  have isLeaf : ((crossingRun ["mute"]).configurationAt
      (crossingRun ["mute"]).activities).leaves (crossing ["mute"]).graph = [3] := by cbv
  refine ⟨built, safe, inRun, ?_⟩
  rw [(inRun _ List.prefix_rfl).leaves, isLeaf]

end Run
end Statechart
