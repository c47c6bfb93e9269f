import Statechart.Proofs.Machine.Evolution
import Statechart.Proofs.Machine.Telling
import Statechart.Proofs.Machine.Order
import Statechart.Proofs.Plan.Transfer

/-!
# The end of a machine

A machine that is asked to stop comes to its end. Every active state is left, each after
everything below it, and whatever its exit action does. Observers hear of every failure. When
all is left nothing is active, what was counted stays, and whatever waited in the queue has
been thrown away. From then on the machine turns everything down.
-/

namespace Statechart

variable {κ τ ω : Type} [DecidableEq κ] [StateKey κ]

/-! ## Leaving states -/

/-- A notification reports that the exit action of a state failed at the end, and the state
is among the leaves that were active then. -/
def Definition.ReportsExit
    (definition : Definition κ τ ω)
    (failed : Nat × Failure)
    (notification : Notification κ τ) : Prop :=
  ∃ active key,
    notification = .lifecycle .stop active
        (.exitFailed (definition.graph.nameOf failed.1) failed.2) ∧
      definition.graph.key? failed.1 = some key ∧ key ∈ active

/-- The exits that failed, in order. -/
def failedExits (outcomes : List (Nat × Option Failure)) : List (Nat × Failure) :=
  outcomes.filterMap fun outcome => outcome.2.map fun cause => (outcome.1, cause)

namespace Work

variable
  {definition : Definition κ τ ω}
  {configuration : Configuration}
  {outcomes : List (Nat × Option Failure)}
  {deeds : List (Activity κ τ)}

/-- Every state is left once, in order. -/
theorem Leaves.completedSteps_eq (leaves : Leaves definition configuration outcomes deeds) :
    completedSteps deeds = outcomes.map fun outcome => .exit outcome.1 := by
  induction leaves with
  | nothing => rfl
  | @state _ state failure _ _ _ _ inductionHypothesis =>
      rw [completedSteps_append, inductionHypothesis]
      cases failure with
      | none => rfl
      | some cause =>
          rw [leaving, List.cons_append, completedSteps, List.filterMap_cons_none rfl,
            List.filterMap_append, filterMap_told_of_blind fun _ _ => rfl]
          rfl

/-- Every outcome is what the exit action of the state gave. -/
theorem Leaves.ran
    (leaves : Leaves definition configuration outcomes deeds)
    {outcome : Nat × Option Failure}
    (member : outcome ∈ outcomes) :
    (runStateAction (definition.exitAction? outcome.1)).Performs ([] : List (Activity κ τ))
      (outcome.2.elim (.ok ()) .error) := by
  induction leaves with
  | nothing => contradiction
  | state ran _ inductionHypothesis =>
      rcases List.mem_cons.mp member with rfl | member
      · exact ran
      · exact inductionHypothesis member

/-- Each observer hears of every failure once, in order, and of nothing else. -/
theorem Leaves.reports
    (leaves : Leaves definition configuration outcomes deeds)
    (forest : definition.graph.IsForest)
    (consistent : configuration.IsConsistent definition.graph)
    (sound : SoundSteps definition.graph configuration
      ((outcomes.map Prod.fst).map Step.exit))
    {observer : Nat}
    (present : observer < definition.observers.length) :
    List.Forall₂ definition.ReportsExit (failedExits outcomes) (received observer deeds) := by
  induction leaves with
  | nothing => exact .nil
  | @state configuration state failure outcomes deeds _ _ inductionHypothesis =>
      have rest := inductionHypothesis (sound.1.isConsistent forest consistent) sound.2
      cases failure with
      | none => exact rest
      | some cause =>
          have isLeaf : state ∈ configuration.leaves definition.graph := by
            rw [Configuration.mem_leaves_iff forest consistent.flags_size,
              Configuration.isLeaf_iff forest]
            exact sound.1
          obtain ⟨key, hasKey⟩ :=
            definition.graph.exists_key (consistent.lt_size sound.1.1)
          have received_eq : received observer (leaving definition
              (definition.graph.keys (configuration.leaves definition.graph)) state
                (some cause) ++ deeds) =
              .lifecycle .stop (definition.graph.keys (configuration.leaves definition.graph))
                (.exitFailed (definition.graph.nameOf state) cause) ::
                  received observer deeds := by
            have heard := received_told present (.lifecycle .stop
              (definition.graph.keys (configuration.leaves definition.graph))
                (.exitFailed (definition.graph.nameOf state) cause))
            rw [received] at heard ⊢
            rw [leaving, List.cons_append, List.cons_append, List.filterMap_cons_none rfl,
              List.append_assoc, List.filterMap_append, heard]
            rfl
          rw [received_eq]
          exact .cons ⟨_, key, rfl, hasKey, List.mem_filterMap.mpr ⟨state, isLeaf, hasKey⟩⟩ rest

end Work

/-! ## Leaving everything -/

/-- What a worker has done at its end. -/
structure Ending (κ τ : Type) where
  /-- The deeds before the end. -/
  earlier : List (Activity κ τ)
  /-- The worker after the last event. -/
  last : Worker κ
  /-- The states that were left, each with the failure of its exit action. -/
  outcomes : List (Nat × Option Failure)
  /-- The deeds of the end. -/
  closing : List (Activity κ τ)

/-- The states that were left, in order. -/
def Ending.exits (ending : Ending κ τ) : List Nat :=
  ending.outcomes.map Prod.fst

/-- At the end all active states are left, and nothing else is done. -/
structure Ending.LeavesAll (definition : Definition κ τ ω) (ending : Ending κ τ) : Prop where
  /-- No event is begun. -/
  nothing_begun : ending.closing.filterMap Activity.began? = []
  /-- Exits and nothing else are completed. -/
  completed_eq : completedSteps ending.closing = ending.exits.map .exit
  /-- The outcome for a state is what its exit action gave. -/
  ran {state : Nat} {failure : Option Failure} :
    (state, failure) ∈ ending.outcomes →
      (Work.runStateAction (definition.exitAction? state)).Performs ([] : List (Activity κ τ))
        (failure.elim (.ok ()) .error)
  /-- No state is left twice. -/
  exits_nodup : ending.exits.Nodup
  /-- Exactly the active states are left. -/
  mem_exits_iff {state : Nat} :
    state ∈ ending.exits ↔ ending.last.configuration.isActive state = true
  /-- An active state is left after every other active state within it. -/
  below_first {state below : Nat} :
    ending.last.configuration.isActive state = true →
      ending.last.configuration.isActive below = true → definition.graph.Within below state →
        below ≠ state → [below, state].Sublist ending.exits
  /-- Trees are left in the order in which their roots were declared. -/
  roots_in_order {first second : Nat} :
    ending.last.configuration.isActive first = true →
      ending.last.configuration.isActive second = true →
        definition.graph.rootOf first < definition.graph.rootOf second →
          [first, second].Sublist ending.exits
  /-- Every observer hears once of each failure, and of nothing else. -/
  reported {observer : Nat} :
    observer < definition.observers.length →
      List.Forall₂ definition.ReportsExit (failedExits ending.outcomes)
        (received observer ending.closing)

namespace Work

variable
  {definition : Definition κ τ ω}
  {last left : Worker κ}
  {closing : List (Activity κ τ)}
  (forest : definition.graph.IsForest)
  (consistent : last.configuration.IsConsistent definition.graph)
  (performs : (shutdown definition last).Performs closing left)

include forest consistent performs

/-- A worker that shuts down leaves all active states. -/
theorem exists_leavesAll
    (sorted : definition.graph.roots.Pairwise (· < ·))
    (earlier : List (Activity κ τ)) :
    ∃ outcomes, Ending.LeavesAll definition ⟨earlier, last, outcomes, closing⟩ := by
  have nothing_begun := performs.filterMap_began
  obtain ⟨outcomes, leaving, outcomes_eq, leaves, rfl, _⟩ := performs_shutdown performs
  have left_iff {state : Nat} :
      state ∈ outcomes.map Prod.fst ↔ last.configuration.isActive state = true := by
    rw [outcomes_eq]
    exact Plan.mem_shutdown_iff forest consistent
  have inside_first := Plan.pairwise_shutdown forest consistent
  have trees_in_order := Plan.pairwise_rootOf_shutdown forest consistent sorted
  rw [← outcomes_eq] at inside_first trees_in_order
  refine ⟨outcomes, ?_⟩
  exact {
    nothing_begun := nothing_begun
    completed_eq := by
      rw [completedSteps_append, leaves.completedSteps_eq, Ending.exits, List.map_map]
      exact List.append_nil _
    ran := fun listed => leaves.ran listed
    exits_nodup := by
      refine inside_first.imp ?_
      rintro state _ notWithin rfl
      exact notWithin (forest.within_refl state)
    mem_exits_iff := left_iff
    below_first := fun active belowActive within different =>
      pair_sublist_of_pairwise inside_first (left_iff.mpr belowActive) (left_iff.mpr active)
        different fun notWithin => notWithin within
    roots_in_order := by
      intro first second firstActive secondActive before
      have different : first ≠ second := by
        rintro rfl
        exact Nat.lt_irrefl _ before
      exact pair_sublist_of_pairwise trees_in_order (left_iff.mpr firstActive)
        (left_iff.mpr secondActive) different fun behind => Nat.not_lt.mpr behind before
    reported := by
      intro observer present
      have reports := leaves.reports forest consistent
        (outcomes_eq ▸ Plan.soundSteps_shutdown forest consistent) present
      rw [received, List.filterMap_append]
      exact (List.append_nil (received observer leaving)).symm ▸ reports }

/-- A worker that has shut down has no active state. -/
theorem inactive_of_shutdown (state : Nat) : left.configuration.isActive state = false := by
  obtain ⟨_, _, _, _, _, rfl⟩ := performs_shutdown performs
  simp only [Configuration.isActive_after_exits, Plan.mem_shutdown_iff forest consistent]
  cases last.configuration.isActive state <;> rfl

/-- A worker that has shut down is shown without active leaves, and with the history and the
counters that it had before. -/
theorem shownAfter_shutdown (shown : Snapshot κ) :
    Session.shownAfter shown closing = ⟨[], last.history, last.metadata⟩ := by
  have inactive := inactive_of_shutdown forest consistent performs
  obtain ⟨_, leaving, _, _, rfl, left_eq⟩ := performs_shutdown performs
  have leaves_eq : left.configuration.leaves definition.graph = [] := by
    rw [Configuration.leaves, List.filter_eq_nil_iff]
    intro state _
    simp [Configuration.isLeaf, inactive]
  have snapshot_eq : left.snapshot definition = ⟨[], last.history, last.metadata⟩ := by
    rw [Worker.snapshot, Worker.active, leaves_eq, left_eq]
    rfl
  rw [Session.shownAfter_append, ← snapshot_eq]
  rfl

end Work

/-! ## Machines that have been stopped -/

section Stopped

variable [DecidableEq τ] [Inspect τ]

/-- The machine turns everything down. -/
structure Machine.IsClosed (machine : Machine κ τ ω) : Prop where
  start_eq (hasRuntime : Bool) : machine.start hasRuntime = (.error .stopped, machine)
  startFrom_eq
      {checkpoint : Checkpoint κ}
      {configuration : Configuration}
      (hasRuntime : Bool) :
    configurationOf machine.definition.graph checkpoint = .ok configuration →
      (machine.startFrom checkpoint hasRuntime).1 = .error .stopped
  stop_eq : machine.stop = (.error .stopped, machine)
  fire_eq (event : Event τ) : machine.fire event = (.error .notRunning, machine)
  settle_eq : machine.settle = (.error .notRunning, machine)

/-- A machine that has been stopped turns everything down. -/
theorem Machine.isClosed_of_stopped
    {machine : Machine κ τ ω}
    (stopped : machine.session.phase = .stopped) :
    machine.IsClosed where
  start_eq hasRuntime := by simp [start, launch, stopped]
  startFrom_eq := by
    intro checkpoint configuration hasRuntime restored
    have stays := (machine.phase_comparingName checkpoint).trans stopped
    simp only [startFrom_eq, restored, launch, stays]
  stop_eq := by simp [stop, requestStop, stopped]
  fire_eq event := by simp [fire, Session.fire, stopped]
  settle_eq := by simp [settle, stopped]

/-- Stopping a machine is asking it to stop and letting its worker handle a command. Then the
worker is gone. -/
theorem Machine.stop_of_running
    {machine : Machine κ τ ω}
    (running : machine.session.phase = .running) :
    machine.stop = (.ok (), machine.perform [.requestStop, .advance]) ∧
      (machine.perform [.requestStop, .advance]).worker = none := by
  refine ⟨by simp [stop, requestStop, running, perform, apply], ?_⟩
  simp only [perform, List.foldl_cons, List.foldl_nil, apply, requestStop, running, advance]
  split
  · assumption
  · simp [finish]

namespace Scene

/-- A machine that has been stopped stays stopped. -/
theorem stopped_apply
    {scene : Scene κ τ ω}
    (stopped : scene.machine.session.phase = .stopped)
    (move : Move κ τ ω) :
    (scene.apply move).machine.session.phase = .stopped := by
  cases move with
  | operation operation =>
      by_cases byWorker : operation = .advance
      · subst byWorker
        rw [apply, advance]
        split
        · rw [takeUp]
          split
          · exact stopped
          · split
            · exact scene.machine.close_keeps.1.trans stopped
            · split
              · exact stopped
              · exact stopped
              · exact stopped
        · exact stopped
        · rename_i work _ _
          obtain ⟨_, _, proceeds⟩ := work.leads_step scene.machine.session
          exact proceeds.stopped stopped
      · rw [scene.apply_of_ne_advance byWorker]
        exact Machine.phase_apply_of_stopped stopped operation
  | tell => exact stopped

theorem stopped_perform
    {scene : Scene κ τ ω}
    (stopped : scene.machine.session.phase = .stopped)
    (moves : List (Move κ τ ω)) :
    (scene.perform moves).machine.session.phase = .stopped := by
  induction moves generalizing scene with
  | nil => exact stopped
  | cons move moves inductionHypothesis =>
      exact inductionHypothesis (scene.stopped_apply stopped move)

/-- The worker has left everything. -/
def IsEnded (scene : Scene κ τ ω) : Prop :=
  scene.hand = none ∧ scene.machine.worker = none

/-- A worker that has been told to stop comes to its end if it goes on long enough. -/
theorem exists_isEnded
    {scene : Scene κ τ ω}
    (isTold : scene.told = true) :
    ∃ count, (scene.perform (List.replicate count (.operation .advance))).IsEnded := by
  obtain ⟨first, completes⟩ := scene.exists_perform_eq_complete
  have idle := scene.hand_complete
  have stillTold := scene.told_complete.trans isTold
  cases isWorker : scene.complete.machine.worker with
  | none => exact ⟨first, by rw [completes]; exact ⟨idle, isWorker⟩⟩
  | some worker =>
      -- The worker takes up its end and carries it out.
      have closing : scene.complete.apply (.operation .advance) =
          ⟨scene.complete.machine.close,
            some (.closing, Work.shutdown scene.complete.machine.definition worker), true⟩ := by
        rw [apply, advance, idle]
        simp only [takeUp, isWorker, stillTold, if_true]
      obtain ⟨second, ends⟩ := exists_perform_eq_complete
        (scene.complete.apply (.operation .advance))
      refine ⟨first + (second + 1), ?_⟩
      rw [List.replicate_add, perform_append, completes, List.replicate_succ, perform_cons, ends,
        closing]
      exact ⟨rfl, rfl⟩

/-- After the end nothing is done any more. -/
theorem IsEnded.apply
    {scene : Scene κ τ ω}
    (ended : scene.IsEnded)
    (begun : scene.machine.session.phase ≠ .created)
    (move : Move κ τ ω) :
    (scene.apply move).IsEnded ∧
      scene.machine.session.Proceeds [] (scene.apply move).machine.session := by
  cases move with
  | operation operation =>
      by_cases byWorker : operation = .advance
      · subst byWorker
        rw [Scene.apply, advance, ended.1]
        simp only [takeUp, ended.2]
        exact ⟨ended, .refl _⟩
      · obtain ⟨proceeds, _, worker_eq⟩ := Machine.proceeds_apply begun byWorker
        rw [scene.apply_of_ne_advance byWorker]
        exact ⟨⟨ended.1, worker_eq.trans ended.2⟩, proceeds⟩
  | tell => exact ⟨ended, .refl _⟩

theorem IsEnded.perform
    {scene : Scene κ τ ω}
    (ended : scene.IsEnded)
    (begun : scene.machine.session.phase ≠ .created)
    (moves : List (Move κ τ ω)) :
    (scene.perform moves).IsEnded ∧
      scene.machine.session.Proceeds [] (scene.perform moves).machine.session := by
  induction moves generalizing scene with
  | nil => exact ⟨ended, .refl _⟩
  | cons move moves inductionHypothesis =>
      obtain ⟨ended, first⟩ := ended.apply begun move
      obtain ⟨ended, rest⟩ := inductionHypothesis ended (first.not_created begun)
      exact ⟨ended, first.trans rest⟩

end Scene

/-! ## Courses -/

namespace Course

variable {definition : Definition κ τ ω}

/-- How a machine has ended in a course. -/
structure EndsWith (course : Course definition) (ending : Ending κ τ) : Prop where
  /-- The deeds of the end come last. -/
  deeds_eq : course.scene.machine.session.deeds = ending.earlier ++ ending.closing
  /-- Before the end the worker was in the configuration of that moment. -/
  configuration_eq : ending.last.configuration = course.configurationAt ending.earlier
  /-- Before the end the worker was shown as it was after the last event. -/
  shown_eq :
    Session.shownAfter course.blank ending.earlier = ending.last.snapshot definition
  /-- All events that were begun had been counted. -/
  count_eq : ending.last.metadata.count =
    course.beginning.base + UInt64.ofNat course.scene.machine.session.begun.length
  /-- Whatever was active then has been left. -/
  leavesAll : ending.LeavesAll definition
  /-- No state is active any more. -/
  nothing_active (state : Nat) :
    (course.configurationAt course.activities).isActive state = false
  /-- No leaf is shown, and the history and the counters are those after the last event. -/
  snapshot_eq : course.scene.machine.snapshot =
    ⟨[], ending.last.history, ending.last.metadata⟩
  /-- Nothing is done any more, nothing else is shown, and everything is turned down,
  whatever happens. -/
  stays (moves : List (Move κ τ ω)) :
    (course.scene.perform moves).IsEnded ∧
      (course.scene.perform moves).machine.session.deeds =
        course.scene.machine.session.deeds ∧
      (course.scene.perform moves).machine.snapshot = course.scene.machine.snapshot ∧
      (course.scene.perform moves).machine.IsClosed

/-- How a machine can be stopped in a course. -/
structure ShutsDown (course : Course definition) : Prop where
  /-- A running machine accepts the request to stop. Whatever happens then, its worker comes
  to an end if it is told and goes on long enough. -/
  accepted : course.scene.machine.session.phase = .running →
    course.scene.machine.requestStop.1 = .ok () ∧
      ∀ between : List (Move κ τ ω), ∃ count,
        (course.scene.perform
          ((.operation .requestStop :: between) ++
            .tell :: List.replicate count (.operation .advance))).IsEnded
  /-- When the worker has been told no event is begun any more, whatever happens. -/
  told : course.scene.told = true → ∀ moves : List (Move κ τ ω),
    (course.scene.perform moves).machine.session.begun =
      course.scene.machine.session.begun
  /-- At its end the worker leaves all active states and nothing else. -/
  ended : course.scene.IsEnded → ∃ ending, course.EndsWith ending

/-- A running machine can be stopped. -/
theorem exists_isEnded_of_running
    (course : Course definition)
    (running : course.scene.machine.session.phase = .running)
    (between : List (Move κ τ ω)) :
    ∃ count, (course.scene.perform
      ((.operation .requestStop :: between) ++
        .tell :: List.replicate count (.operation .advance))).IsEnded := by
  have requested : (course.scene.apply (.operation .requestStop)).machine.session.phase =
      .stopped := by
    simp [Scene.apply, Machine.apply, Machine.requestStop, running]
  have stopped := Scene.stopped_perform requested between
  let waiting := (course.scene.apply (.operation .requestStop)).perform between
  have isTold : (waiting.apply .tell).told = true :=
    Bool.or_eq_true_iff.mpr (.inr (beq_iff_eq.mpr stopped))
  obtain ⟨count, ended⟩ := Scene.exists_isEnded isTold
  refine ⟨count, ?_⟩
  rw [Scene.perform_append]
  exact ended

/-- A worker that has come to its end has left everything. -/
theorem exists_endsWith
    {draft : MachineDraft κ τ ω}
    (built : draft.build = .ok definition)
    (course : Course definition)
    (ended : course.scene.IsEnded) :
    ∃ ending, course.EndsWith ending := by
  have wellFormed := Definition.isWellFormed_of_build built
  have forest := wellFormed.forest
  obtain ⟨work, chronicle, begins, unfolds⟩ := course.exists_unfolds_of_begins built
  have stage := unfolds.stage
  rw [ended.1, ended.2] at stage
  obtain ⟨opened, first, accounts, last, closing, left, isTold, rfl, opens, handles, performs⟩ :=
    stage.of_ended
  obtain ⟨evolves, consistent⟩ := begins.evolves_handles wellFormed opens handles
  obtain ⟨outcomes, leavesAll⟩ := Work.exists_leavesAll forest consistent performs
    (Definition.sorted_roots_of_build built)
    (opened ++ accounts.flatMap (Account.chapter definition))
  have deeds_eq : course.scene.machine.session.deeds =
      opened ++ accounts.flatMap (Account.chapter definition) ++ closing :=
    unfolds.deeds_eq
  have all_evolve : Configuration.Evolves definition.graph
      (course.beginning.origin definition.graph) course.activities left.configuration := by
    refine .of_deeds ?_
    change Configuration.Evolves _ _ course.scene.machine.session.deeds _
    rw [deeds_eq]
    exact evolves.trans (Work.evolves_shutdown forest consistent performs)
  refine ⟨⟨opened ++ accounts.flatMap (Account.chapter definition), last, outcomes, closing⟩, ?_⟩
  exact {
    deeds_eq := deeds_eq
    configuration_eq := evolves.after_eq
    shown_eq := by
      rw [Session.shownAfter_append, begins.opens.shownAfter_eq opens, handles.shownAfter_eq]
    count_eq := by
      rw [handles.count_eq, begins.opens.count_eq opens, unfolds.begun_eq,
        Scene.underway, ended.1, List.append_nil, List.length_map]
    leavesAll := leavesAll
    nothing_active := by
      intro state
      rw [configurationAt, ← all_evolve.after_eq]
      exact Work.inactive_of_shutdown forest consistent performs state
    snapshot_eq := by
      rw [Machine.snapshot, unfolds.shown_eq, deeds_eq, Session.shownAfter_append]
      exact Work.shownAfter_shutdown forest consistent performs _
    stays := by
      intro moves
      obtain ⟨still, proceeds⟩ := ended.perform unfolds.begun moves
      refine ⟨still, ?_, proceeds.published_eq, Machine.isClosed_of_stopped
        (Scene.stopped_perform (unfolds.told_stopped isTold) moves)⟩
      rw [proceeds.deeds_eq, List.append_nil] }

/-- A run in which the machine is stopped is a course that ends. -/
theorem exists_isEnded_of_stop
    (run : Run definition)
    (running : run.machine.session.phase = .running) :
    run.machine.stop.1 = .ok () ∧
      ∃ course : Course definition, course.beginning = run.beginning ∧
        course.scene.machine = run.machine.stop.2 ∧ course.scene.IsEnded := by
  obtain ⟨stop_eq, gone⟩ := Machine.stop_of_running running
  let stopping : Run definition :=
    { run with operations := run.operations ++ [.requestStop, .advance] }
  have machine_eq : stopping.machine = run.machine.perform [.requestStop, .advance] :=
    List.foldl_append
  obtain ⟨course, beginning_eq, scene_eq⟩ := stopping.exists_course
  rw [machine_eq] at scene_eq
  refine ⟨congrArg Prod.fst stop_eq, course, beginning_eq, ?_, ?_⟩
  · rw [scene_eq, stop_eq]
    rfl
  · rw [scene_eq]
    exact ⟨rfl, gone⟩

/-- Whatever happens in the course of time, a machine that runs can be stopped, and then it
ends as it should. -/
theorem shutsDown
    {draft : MachineDraft κ τ ω}
    (built : draft.build = .ok definition) :
    (∀ run : Run definition, run.machine.session.phase = .running →
      run.machine.stop.1 = .ok () ∧
        ∃ course : Course definition, course.beginning = run.beginning ∧
          course.scene.machine = run.machine.stop.2 ∧ course.scene.IsEnded) ∧
      ∀ course : Course definition, course.ShutsDown := by
  have forest := (Definition.isWellFormed_of_build built).forest
  have fits := Definition.fits_of_build built
  refine ⟨exists_isEnded_of_stop, fun course => ?_⟩
  exact {
    accepted := fun running =>
      ⟨by rw [Machine.requestStop, running], course.exists_isEnded_of_running running⟩
    told := by
      obtain ⟨_, _, _, unfolds⟩ := course.exists_unfolds_of_begins built
      exact unfolds.begun_perform_of_told forest fits
    ended := course.exists_endsWith built }

/-! ## An example -/

/-- The same machine, stopped by a caller while an event is processed and another one waits. -/
def interrupted : Course heard :=
  { hearing with
    moves :=
      .operation (.fire (.new .nil "cross")) :: .operation (.fire (.new .nil "cross")) ::
        List.replicate 10 (.operation .advance) ++ .operation .requestStop :: .tell ::
          List.replicate 40 (.operation .advance) }

/-- The event in hand is processed to its end and the other one never begins. Three states
are left, and the observer hears of the one whose exit action breaks off. -/
theorem shutsDown_interrupted :
    heardDraft.build = .ok heard ∧
      interrupted.scene.IsEnded ∧
      interrupted.scene.machine.session.accepted.length = 2 ∧
      interrupted.scene.machine.session.begun.length = 1 ∧
      completedSteps interrupted.activities =
        [.enter 0, .enter 1, .enter 3, .exit 1, .exit 3, .enter 1, .enter 4, .exit 1, .exit 4,
          .exit 0] ∧
      (received 0 interrupted.scene.machine.session.deeds).map Notification.kind =
        ["begin", "exception", "completed", "lifecycle exception"] ∧
      interrupted.ShutsDown := by
  have built : heardDraft.build = .ok heard := by cbv
  exact ⟨built, ⟨by cbv, by cbv⟩, by cbv, by cbv, by cbv, by cbv,
    (shutsDown built).2 interrupted⟩

end Course
end Stopped
end Statechart
