import Statechart.Proofs.Machine.Moments
import Statechart.Proofs.Machine.Perseverance
import Statechart.Proofs.Machine.Reports
import Statechart.Proofs.Machine.Scope
import Statechart.Proofs.Plan.Defaults
import Statechart.Proofs.Plan.Independence

/-!
# Machines and default leaves

The graph tells which leaves are active by default below a state. After a start in which no
entry action fails the machine shows the default leaves of its roots, and after an external
transition in which no step fails those within its target are the default leaves of the
target, whatever was active before.
-/

namespace Statechart

variable {κ τ ω : Type} [DecidableEq κ] [StateKey κ]

/-! ## The start -/

/-- Whether an entry action failed at the start in an activity. -/
def Activity.isStartFailure : Activity κ τ → Bool
  | .startFailed .. => true
  | _ => false

/-- No entry action has failed at the start. -/
def StartsWell (activities : List (Activity κ τ)) : Prop :=
  ∀ activity ∈ activities, activity.isStartFailure = false

instance (activities : List (Activity κ τ)) : Decidable (StartsWell activities) :=
  inferInstanceAs (Decidable (∀ activity ∈ activities, activity.isStartFailure = false))

omit [DecidableEq κ] [StateKey κ] in
/-- If all steps are completed, those that are completed are all steps. -/
theorem Work.Taken.done_eq
    {fails : Step → StepError → List (Activity κ τ) → Prop}
    {steps done : List Step}
    {deeds : List (Activity κ τ)}
    (taken : Taken fails steps done none deeds) :
    done = steps := by
  cases taken with
  | all => rfl

/-- A start in which no entry action fails enters everything. -/
theorem Work.configuration_of_startsWell
    {definition : Definition κ τ ω}
    {worker after : Worker κ}
    {deeds : List (Activity κ τ)}
    (nothing : worker.configuration = Configuration.empty definition.graph.size)
    (performs : (thenPublish definition (enterInitial definition worker)).Performs deeds after)
    (well : StartsWell deeds) :
    after.configuration = Plan.started definition.graph := by
  obtain ⟨earlier, rfl, enters⟩ := performs_thenPublish performs
  obtain ⟨done, failure, steps, taken, rfl, rfl⟩ := performs_enterInitial enters
  cases taken with
  | all => rw [nothing, Plan.started]
  | upTo _ failed =>
      cases failed with
      | enter state cause =>
          have failed := well (.startFailed (definition.graph.nameOf state) cause) (by simp)
          contradiction

section Courses

variable [DecidableEq τ] [Inspect τ] {definition : Definition κ τ ω}

/-- As long as one snapshot has been published, a machine whose worker has opened shows what it
showed then. -/
theorem Scene.Unfolds.exists_first_shown
    {beginning : Beginning κ}
    {work : Work κ τ ω (Worker κ)}
    {base : UInt64}
    {blank : Snapshot κ}
    {scene : Scene κ τ ω}
    {chronicle : Chronicle κ τ ω}
    (begins : Work.Begins definition beginning work)
    (unfolds : scene.Unfolds definition (Work.thenPublish definition work) base blank chronicle)
    (opened : ∀ work, scene.hand ≠ some (.opening, work)) :
    ∃ first, (Work.thenPublish definition work).Performs chronicle.opened first ∧
      ((reports scene.machine.session.deeds).length ≤ 1 →
        scene.machine.snapshot = first.snapshot definition) := by
  obtain ⟨first, worker, opens, handles⟩ := unfolds.stage.of_opened opened
  have reports_eq := (begins.reports_deeds opens handles chronicle.current).1
  refine ⟨first, opens, fun few => ?_⟩
  rw [unfolds.deeds_eq, reports_eq, List.cons_append, List.length_cons] at few
  have nothing := List.length_eq_zero_iff.mp (Nat.le_zero.mp (Nat.le_of_succ_le_succ few))
  rw [Machine.snapshot, unfolds.shown_eq, unfolds.deeds_eq, Session.shownAfter_eq_getLastD,
    ← map_shown_reports, reports_eq, List.cons_append, nothing]
  rfl

/-- Once a start is over in which no entry action failed, and until an event is counted and
published, a machine shows the default leaves of all roots. -/
theorem Course.currentStates_of_startsWell
    {draft : MachineDraft κ τ ω}
    (built : draft.build = .ok definition)
    (course : Course definition)
    (starts : course.beginning = .start)
    (opened : ∀ work, course.scene.hand ≠ some (.opening, work))
    (uncounted : course.reports.length ≤ 1)
    (well : StartsWell course.activities) :
    course.scene.machine.currentStates =
      definition.graph.rootKeys.flatMap definition.graph.defaultLeaves := by
  have forest := (Definition.isWellFormed_of_build built).forest
  obtain ⟨work, chronicle, begins, unfolds⟩ := course.exists_unfolds_of_begins built
  obtain ⟨first, opens, shown⟩ := unfolds.exists_first_shown begins opened
  rw [starts] at begins
  cases begins with
  | start clock world =>
      have openedWell : StartsWell chronicle.opened := by
        intro deed member
        have listed : deed ∈ course.scene.machine.session.deeds := by
          rw [unfolds.deeds_eq, Chronicle.deeds]
          exact List.mem_append_left _ (List.mem_append_left _ member)
        obtain ⟨activity, recorded, own⟩ := List.mem_filterMap.mp listed
        rcases activity.deed?_cases with ⟨foreign, _⟩ | same
        · rw [foreign] at own
          contradiction
        · rw [same] at own
          cases own
          exact well deed recorded
      have reached := Work.configuration_of_startsWell rfl opens openedWell
      rw [Machine.currentStates, shown uncounted, forest.flatMap_defaultLeaves_rootKeys,
        ← Plan.leaves_started forest, ← reached]
      rfl

omit [DecidableEq τ] [Inspect τ] in
/-- A start publishes one snapshot. -/
theorem Machine.length_reports_start
    (definition : Definition κ τ ω)
    (clock : Timestamp)
    (world : ω) :
    (reports ((Machine.new definition clock world).start true).2.session.deeds).length = 1 := by
  have created : (Machine.new definition clock world).session.phase = .created := rfl
  obtain ⟨opened, opens, proceeds⟩ :=
    (Work.thenPublish definition (Work.enterInitial definition
      (Machine.new definition clock world).freshWorker)).performs_run
        { (Machine.new definition clock world).session with phase := .running, number := 0 }
  have begins : Work.Begins definition .start
      (Work.enterInitial definition (Machine.new definition clock world).freshWorker) :=
    .start clock world
  have reports_eq := begins.reports_append opens []
  have deeds_eq : ((Machine.new definition clock world).start true).2.session.deeds = opened := by
    have run_eq := proceeds.deeds_eq
    simp only [Work.thenPublish, Work.run_bind, Work.run_enterInitial, Work.run_publish,
      Work.run_done] at run_eq
    rw [start, launch_of_created created]
    exact run_eq
  rw [deeds_eq, ← List.append_nil opened, reports_eq]
  rfl

/-- Right after a start in which no entry action failed a machine shows the default leaves of all
roots. -/
theorem Machine.currentStates_start
    {draft : MachineDraft κ τ ω}
    (built : draft.build = .ok definition)
    (clock : Timestamp)
    (world : ω)
    (well : StartsWell ((Machine.new definition clock world).start true).2.session.activities) :
    ((Machine.new definition clock world).start true).2.currentStates =
      definition.graph.rootKeys.flatMap definition.graph.defaultLeaves := by
  have created : (Machine.new definition clock world).session.phase = .created := rfl
  obtain ⟨accepted, _⟩ := start_of_created created
  let run : Run definition := ⟨clock, world, .start, _, Prod.ext accepted rfl, []⟩
  obtain ⟨course, starts, scene_eq⟩ := run.exists_course
  have machine_eq : course.scene.machine = ((Machine.new definition clock world).start true).2 :=
    congrArg Scene.machine scene_eq
  have uncounted : course.reports.length ≤ 1 := by
    rw [Course.reports, machine_eq, length_reports_start]
  rw [← machine_eq] at well ⊢
  refine course.currentStates_of_startsWell built starts (fun work => ?_) uncounted well
  rw [scene_eq]
  intro working
  contradiction

/-! ## External transitions -/

omit [DecidableEq τ] in
/-- An entry that is in effect external names a target, which is a state. -/
theorem Definition.exists_target_key
    (forest : definition.graph.IsForest)
    (fits : definition.table.Fits definition.graph)
    {entry : Entry κ τ ω}
    (listed : entry ∈ definition.table.entries)
    (external : entry.kind = .external) :
    ∃ key target, entry.transition.target = some key ∧ entry.target = some target ∧
      definition.graph.key? target = some key := by
  obtain ⟨target, hasTarget⟩ := exists_target fits listed external
  obtain ⟨source, _, ⟨_, entry_eq⟩ | ⟨key, found, named, resolved, _, _, entry_eq⟩⟩ :=
    Table.entryOf_eq_ok (fits entry listed)
  · rw [entry_eq] at hasTarget
    contradiction
  · have same : entry.target = some found := congrArg Entry.target entry_eq
    rw [hasTarget] at same
    cases same
    exact ⟨key, target, named, hasTarget, forest.indexOf?_eq_some_iff.mp resolved⟩

/-- After an event the default leaves of the target of its transition are active within the
target, and observers are told so. -/
structure Account.BringsDefaults
    (definition : Definition κ τ ω)
    (account : Account κ τ ω)
    (entry : Entry κ τ ω)
    (target : Nat)
    (key : κ) : Prop where
  /-- The transition names the target. -/
  names : entry.transition.target = some key
  /-- The target is the state with this key. -/
  key_eq : definition.graph.key? target = some key
  /-- The active leaves within the target are its default leaves, in this order. -/
  within_target :
    ((account.after definition).active definition).filter (definition.graph.liesWithin · key) =
      definition.graph.defaultLeaves key
  /-- If the target is a root its whole tree is as it is after the start. -/
  whole_tree {state : Nat} :
    definition.graph.parentOf target = none → definition.graph.rootOf state = target →
      (account.after definition).configuration.isActive state =
        (Plan.started definition.graph).isActive state
  /-- At last observers are told which leaves are active. -/
  told :
    account.closing definition =
      [.completed (account.before.active definition) ((account.after definition).active definition)
        (account.context definition)]

/-- Every external transition that is selected brings the defaults of its target, unless a step
fails. -/
def Account.FollowsDefaults (definition : Definition κ τ ω) (account : Account κ τ ω) : Prop :=
  ∀ entry, account.chosen = some entry → entry.kind = .external → account.failure = none →
    ∃ target key, account.BringsDefaults definition entry target key

/-- What is right about an event that begins in a consistent configuration follows the
defaults. -/
theorem Account.IsRight.bringsDefaults
    {account : Account κ τ ω}
    (isRight : account.IsRight definition)
    (wellFormed : definition.IsWellFormed)
    (fits : definition.table.Fits definition.graph)
    (consistent : account.before.configuration.IsConsistent definition.graph) :
    account.FollowsDefaults definition := by
  intro entry chosen external unfailing
  have forest := wellFormed.forest
  obtain ⟨listed, active⟩ := isRight.source_active wellFormed consistent chosen
  obtain ⟨key, target, named, hasTarget, has⟩ :=
    Definition.exists_target_key forest fits listed external
  have sameTree := wellFormed.sameTree listed hasTarget
  have planned : definition.planOf? account.before.configuration entry =
      some (.external definition.graph account.before.configuration entry.source target) := by
    rw [Definition.planOf?, external, hasTarget]
  have reached : (account.after definition).configuration =
      (Plan.external definition.graph account.before.configuration entry.source
        target).outcome account.before.configuration := by
    obtain ⟨_, _, taken⟩ := isRight.taken chosen
    rw [unfailing, planned] at taken
    show account.before.configuration.after account.done = _
    rw [taken.done_eq]
    exact Plan.after_steps _ _ _
  exact ⟨target, key, {
    names := named
    key_eq := has
    within_target := by
      rw [Worker.active, forest.filter_keys_within has, reached,
        Plan.filter_leaves_outcome forest consistent active sameTree, forest.defaultLeaves_eq has]
    whole_tree := by
      intro state isRoot inTree
      rw [reached]
      exact Plan.isActive_outcome_of_root forest consistent active sameTree isRoot inTree
    told := by
      rw [Account.closing, chosen, unfailing]
      rfl }⟩

/-- A worker that is not interrupted gives an account of every event that it processes. -/
theorem Worker.exists_account
    (forest : definition.graph.IsForest)
    (fits : definition.table.Fits definition.graph)
    (worker : Worker κ)
    (event : Event τ)
    (session : Session κ τ ω) :
    ∃ account : Account κ τ ω, account.IsRight definition ∧ account.event = event ∧
      account.before = worker ∧
        (worker.process definition event session).2.deeds =
          session.deeds ++ account.chapter definition ∧
        (worker.process definition event session).1 = account.after definition := by
  obtain ⟨deeds, performs, proceeds⟩ :=
    (Work.process definition worker event).performs_run (session.note (.began event))
  rw [Work.run_process] at performs proceeds
  obtain ⟨account, isRight, rfl, rfl, rfl, after_eq, _⟩ :=
    Work.exists_account_of_performs_process forest fits performs
  refine ⟨account, isRight, rfl, rfl, ?_, after_eq.symm⟩
  rw [proceeds.deeds_eq, Session.deeds_note, List.append_assoc]
  rfl

/-- What the graph says about defaults is what a machine does. A start in which no entry action
fails leads to the default leaves of all roots, in a machine that is not interrupted and in every
course. An external transition in which no step fails leads to the default leaves of its target,
for workers that are interrupted and for those that are not, and in every course. -/
theorem Definition.followsDefaults
    {draft : MachineDraft κ τ ω}
    (built : draft.build = .ok definition) :
    (∀ clock world,
      ((Machine.new definition clock world).start true).1 = .ok () ∧
        (StartsWell ((Machine.new definition clock world).start true).2.session.activities →
          ((Machine.new definition clock world).start true).2.currentStates =
            definition.graph.rootKeys.flatMap definition.graph.defaultLeaves)) ∧
      (∀ course : Course definition, course.beginning = .start →
        (∀ work, course.scene.hand ≠ some (.opening, work)) →
        course.reports.length ≤ 1 →
        StartsWell course.activities →
          course.scene.machine.currentStates =
            definition.graph.rootKeys.flatMap definition.graph.defaultLeaves) ∧
      (∀ (worker after : Worker κ) (event : Event τ) (deeds : List (Activity κ τ)),
        worker.configuration.IsConsistent definition.graph →
        (Work.process definition worker event).Performs deeds after →
          ∃ account : Account κ τ ω, account.IsRight definition ∧ account.event = event ∧
            account.before = worker ∧ account.deeds definition = deeds ∧
              account.after definition = after ∧ account.FollowsDefaults definition) ∧
      (∀ (worker : Worker κ) (event : Event τ) (session : Session κ τ ω),
        worker.configuration.IsConsistent definition.graph →
          ∃ account : Account κ τ ω, account.IsRight definition ∧ account.event = event ∧
            account.before = worker ∧
              (worker.process definition event session).2.deeds =
                session.deeds ++ account.chapter definition ∧
              (worker.process definition event session).1 = account.after definition ∧
                account.FollowsDefaults definition) ∧
      ∀ course : Course definition, ∃ chronicle : Chronicle κ τ ω,
        course.scene.machine.session.deeds = chronicle.deeds definition ∧
          ∀ account ∈ chronicle.accounts,
            (Work.process definition account.before account.event).Performs
                (account.deeds definition) (account.after definition) ∧
              account.IsRight definition ∧ account.FollowsDefaults definition := by
  have wellFormed := isWellFormed_of_build built
  have fits := fits_of_build built
  refine ⟨fun clock world => ⟨(Machine.start_of_created rfl).1,
      Machine.currentStates_start built clock world⟩,
    fun course => course.currentStates_of_startsWell built, ?_, ?_, fun course => ?_⟩
  · intro worker after event deeds consistent performs
    obtain ⟨account, isRight, rfl, rfl, deeds_eq, after_eq, _⟩ :=
      Work.exists_account_of_performs_process wellFormed.forest fits performs
    exact ⟨account, isRight, rfl, rfl, deeds_eq, after_eq,
      isRight.bringsDefaults wellFormed fits consistent⟩
  · intro worker event session consistent
    obtain ⟨account, isRight, rfl, rfl, deeds_eq, after_eq⟩ :=
      Worker.exists_account wellFormed.forest fits worker event session
    exact ⟨account, isRight, rfl, rfl, deeds_eq, after_eq,
      isRight.bringsDefaults wellFormed fits consistent⟩
  · obtain ⟨_, chronicle, begins, unfolds⟩ := course.exists_unfolds_of_begins built
    refine ⟨chronicle, unfolds.deeds_eq, fun account member => ?_⟩
    obtain ⟨_, _, split⟩ := List.append_of_mem member
    obtain ⟨_, opens, before, isRight, performs⟩ := unfolds.stage.of_split split
    obtain ⟨_, consistent⟩ := begins.evolves_handles wellFormed opens before
    exact ⟨performs, isRight, isRight.bringsDefaults wellFormed fits consistent⟩

end Courses

/-! ## An example -/

namespace Definition

open Run (crossing crossingDraft midnight)

/-- A machine with two regions and a transition to the root that holds them. -/
def restartingDraft : MachineDraft String String Unit :=
  { crossingDraft [] with transitions := [Transition.external "green" "restart" "on"] }

/-- What the draft describes. -/
def restarting : Definition String String Unit :=
  { crossing [] with
    table := ⟨[⟨.external "green" "restart" "on", 2, some 0, .external⟩]⟩ }

/-- A worker one of whose regions has been left empty. -/
def restartingWorker : Worker String :=
  { (Machine.new restarting midnight ()).freshWorker with configuration := Plan.greenOnly }

/-- The session of the machine at its creation. -/
def restartingSession : Session String String Unit :=
  (Machine.new restarting midnight ()).session

/-- Both regions are filled again. -/
theorem followsDefaults_restarting :
    restartingDraft.build = .ok restarting ∧
      restarting.graph.rootKeys.flatMap restarting.graph.defaultLeaves = ["red", "mute"] ∧
      ((Machine.new restarting midnight ()).start true).2.currentStates = ["red", "mute"] ∧
      restartingWorker.active restarting = ["green"] ∧
      ((restartingWorker.process restarting (.new .nil "restart") restartingSession).1.active
        restarting) = ["red", "mute"] ∧
      ∃ account : Account String String Unit, account.IsRight restarting ∧
        account.event = .new .nil "restart" ∧ account.before = restartingWorker ∧
          (restartingWorker.process restarting (.new .nil "restart")
              restartingSession).2.deeds =
            restartingSession.deeds ++ account.chapter restarting ∧
          (restartingWorker.process restarting (.new .nil "restart") restartingSession).1 =
            account.after restarting ∧
            account.FollowsDefaults restarting := by
  have built : restartingDraft.build = .ok restarting := by cbv
  have consistent : restartingWorker.configuration.IsConsistent restarting.graph := by
    have restored : Configuration.ofLeaves restarting.graph [2] =
        .ok restartingWorker.configuration := by cbv
    exact Configuration.isConsistent_of_ofLeaves (isWellFormed_of_build built).forest restored
  have well : StartsWell
      ((Machine.new restarting midnight ()).start true).2.session.activities := by
    decide +kernel
  have defaults : restarting.graph.rootKeys.flatMap restarting.graph.defaultLeaves =
      ["red", "mute"] := by cbv
  obtain ⟨starts, _, _, processes, _⟩ := followsDefaults built
  exact ⟨built, defaults, ((starts midnight ()).2 well).trans defaults, by cbv, by cbv,
    processes restartingWorker (.new .nil "restart") restartingSession consistent⟩

end Definition
end Statechart
