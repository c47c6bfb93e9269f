import Statechart.Proofs.Machine.Attempts
import Statechart.Proofs.Machine.Unfolding
import Statechart.Proofs.Plan.External

/-!
# What an event leaves alone

An event that is declined and a transition that stays where it is leave no state and enter
none. An external transition keeps to the regions of its domain that hold an end. Whatever
fails on the way, the domain, what lies above it, its other regions and everything beside it
stay as they are, and what would happen on entering or leaving them makes no difference.
-/

namespace Statechart

/-! ## States that a transition spares -/

namespace Plan

variable {κ : Type} {graph : Graph κ}

/-- A transition has nothing to do with a state. -/
inductive Spares (graph : Graph κ) (source target state : Nat) : Prop
  /-- There is no domain, and the state is in another tree than the target. -/
  | tree
      (noDomain : domain? graph source target = none)
      (different : graph.rootOf state ≠ graph.rootOf target)
  /-- The state is the domain or lies above it. -/
  | above
      {domain : Nat}
      (hasDomain : domain? graph source target = some domain)
      (within : graph.Within domain state)
  /-- The state lies beside the domain. -/
  | beside
      {domain : Nat}
      (hasDomain : domain? graph source target = some domain)
      (outside : ¬ graph.Within state domain)
  /-- The state lies in a region of the domain that holds neither end. -/
  | region
      {domain branch : Nat}
      (hasDomain : domain? graph source target = some domain)
      (below : graph.parentOf branch = some domain)
      (free : ¬ HoldsEnd graph source target domain (graph.regionOf branch))
      (within : graph.Within state branch)

/-- The states that are spared are those that are not affected. -/
theorem spares_iff
    (forest : graph.IsForest)
    {source target state : Nat} :
    Spares graph source target state ↔ ¬ IsAffected graph source target state := by
  constructor
  · intro spares affected
    cases spares with
    | tree noDomain different =>
        exact different ((isAffected_of_domain_none noDomain).mp affected)
    | above hasDomain within =>
        exact not_isAffected_of_domain_within forest hasDomain within affected
    | beside hasDomain outside =>
        obtain ⟨_, below, _, within⟩ := (isAffected_of_domain_some hasDomain).mp affected
        exact outside (forest.within_trans within (forest.within_parent below))
    | region hasDomain below free within =>
        obtain ⟨_, otherBelow, holdsEnd, otherWithin⟩ :=
          (isAffected_of_domain_some hasDomain).mp affected
        obtain rfl := forest.eq_of_common_within below otherBelow within otherWithin
        exact free holdsEnd
  · intro unaffected
    cases domain_eq : domain? graph source target with
    | none =>
        exact .tree domain_eq fun same =>
          unaffected ((isAffected_of_domain_none domain_eq).mpr same)
    | some domain =>
        by_cases within : graph.Within state domain
        · by_cases same : state = domain
          · exact .above domain_eq (same ▸ forest.within_refl state)
          · obtain ⟨branch, below, branchWithin⟩ := forest.exists_branch within same
            exact .region domain_eq below (fun holdsEnd => unaffected
              ((isAffected_of_domain_some domain_eq).mpr
                ⟨branch, below, holdsEnd, branchWithin⟩)) branchWithin
        · exact .beside domain_eq within

/-- What is left and entered is not spared. -/
theorem not_spares_of_mem_external
    (forest : graph.IsForest)
    {configuration : Configuration}
    (consistent : configuration.IsConsistent graph)
    {source target state : Nat}
    (sameTree : graph.rootOf source = graph.rootOf target)
    (member : state ∈ (external graph configuration source target).exits ∨
      state ∈ (external graph configuration source target).entries) :
    ¬ Spares graph source target state := by
  rw [spares_iff forest, not_not]
  rcases member with left | entered
  · exact ((mem_exits_external_iff forest consistent).mp left).2
  · exact ((mem_entries_external_iff forest sameTree).mp entered).1

end Plan

variable {κ τ ω : Type}

/-! ## Other state actions -/

section Hooks

variable [DecidableEq κ]

namespace Definition

/-- A definition with other state actions. -/
def withHooks
    (definition : Definition κ τ ω)
    (hooks : Hooks κ (StateAction κ τ ω)) : Definition κ τ ω :=
  { definition with hooks }

/-- With other state actions the same would happen on entering and leaving a state. -/
def KeepsHooks
    (definition : Definition κ τ ω)
    (hooks : Hooks κ (StateAction κ τ ω))
    (state : Nat) : Prop :=
  (definition.withHooks hooks).entryAction? state = definition.entryAction? state ∧
    (definition.withHooks hooks).exitAction? state = definition.exitAction? state

end Definition

namespace Work

omit [DecidableEq κ] in
/-- Steps are taken alike if the attempts at them are alike. -/
theorem takeSteps_congr
    {attempt other : Step → Work κ τ ω (Except StepError Unit)}
    {steps : List Step}
    (alike : ∀ step ∈ steps, attempt step = other step)
    (configuration : Configuration) :
    takeSteps attempt steps configuration = takeSteps other steps configuration := by
  induction steps generalizing configuration with
  | nil => rfl
  | cons step steps inductionHypothesis =>
      rw [takeSteps, takeSteps, alike step List.mem_cons_self]
      refine congrArg _ (funext fun result => ?_)
      cases result with
      | error error => rfl
      | ok _ =>
          exact congrArg _ (inductionHypothesis
            (fun later member => alike later (List.mem_cons_of_mem _ member)) _)

variable
  [StateKey κ]
  [Inspect τ]
  {definition : Definition κ τ ω}
  {hooks : Hooks κ (StateAction κ τ ω)}

omit [DecidableEq κ] in
/-- No state action has a say in the selection. -/
theorem choose_withHooks (event : Event τ) (entries : List (Entry κ τ ω)) :
    choose (definition.withHooks hooks) event entries = choose definition event entries := by
  induction entries with
  | nil => rfl
  | cons entry entries inductionHypothesis =>
      rw [choose, choose, inductionHypothesis]
      rfl

/-- A transition is carried out alike if the state actions of what it leaves and enters are
kept. -/
theorem execute_withHooks
    {entry : Entry κ τ ω}
    {configuration : Configuration}
    (keeps : ∀ state,
      .exit state ∈ Definition.stepsOf entry (definition.planOf? configuration entry) ∨
        .enter state ∈ Definition.stepsOf entry (definition.planOf? configuration entry) →
      definition.KeepsHooks hooks state)
    (event : Event τ) :
    execute (definition.withHooks hooks) entry event configuration =
      execute definition entry event configuration := by
  have alike : takeSteps (attempt (definition.withHooks hooks) entry.source
        entry.transition.actions event)
        (Definition.stepsOf entry (definition.planOf? configuration entry)) configuration =
      takeSteps (attempt definition entry.source entry.transition.actions event)
        (Definition.stepsOf entry (definition.planOf? configuration entry)) configuration := by
    refine takeSteps_congr (fun step member => ?_) configuration
    cases step with
    | exit state =>
        rw [attempt, attempt, (keeps state (.inl member)).2]
        rfl
    | act position => rfl
    | enter state =>
        rw [attempt, attempt, (keeps state (.inr member)).1]
        rfl
  have plan_eq : (definition.withHooks hooks).planOf? configuration entry =
      definition.planOf? configuration entry := rfl
  rw [execute, execute, plan_eq, alike]
  rfl

/-- A transition that is carried out alike is followed alike. -/
theorem follow_withHooks
    {worker : Worker κ}
    {entry : Entry κ τ ω}
    {context : Context κ τ}
    (alike : execute (definition.withHooks hooks) entry context.event worker.configuration =
      execute definition entry context.event worker.configuration) :
    follow (definition.withHooks hooks) worker entry context =
      follow definition worker entry context :=
  congrArg (fun executed : Work κ τ ω (Option StepError × Configuration) =>
    executed.bind _) alike

end Work
end Hooks

/-! ## Events -/

/-- A completed step was attempted. -/
theorem mem_attemptedSteps_of_completed
    {activities : List (Activity κ τ)}
    {step : Step}
    (completed : step ∈ completedSteps activities) :
    step ∈ attemptedSteps activities := by
  obtain ⟨activity, member, completes⟩ := List.mem_filterMap.mp completed
  exact List.mem_filterMap.mpr
    ⟨activity, member, Activity.attemptedStep?_of_completedStep? completes⟩

/-- Actions leave the configuration as it is. -/
theorem Configuration.after_eq_self
    {steps : List Step}
    (acts : ∀ step ∈ steps, ∃ position, step = .act position)
    (configuration : Configuration) :
    configuration.after steps = configuration := by
  induction steps with
  | nil => rfl
  | cons step steps inductionHypothesis =>
      obtain ⟨position, rfl⟩ := acts step List.mem_cons_self
      exact inductionHypothesis fun later member => acts later (List.mem_cons_of_mem _ member)

section Events

variable
  [DecidableEq κ]
  [StateKey κ]
  [DecidableEq τ]
  [Inspect τ]
  {definition : Definition κ τ ω}

/-- An event leaves alone whatever is not concerned. -/
structure Account.KeepsToScope
    (definition : Definition κ τ ω)
    (account : Account κ τ ω) : Prop where
  /-- If the event is declined no step is attempted, and the same states are active. -/
  declined :
    account.chosen = none →
      attemptedSteps (account.chapter definition) = [] ∧
        (account.after definition).configuration = account.before.configuration
  /-- If an internal transition is selected only its actions are attempted, and the same states
  are active. -/
  stays {entry : Entry κ τ ω} :
    account.chosen = some entry → entry.kind = .internal →
      (∀ step ∈ attemptedSteps (account.chapter definition),
        ∃ position, step = .act position) ∧
        (account.after definition).configuration = account.before.configuration
  /-- If an external transition is selected it has a target in the tree of its source, and a
  state that it spares is not left, not entered, and active if it was. -/
  moves {entry : Entry κ τ ω} :
    account.chosen = some entry → entry.kind = .external →
      ∃ target, entry.target = some target ∧
        definition.graph.rootOf entry.source = definition.graph.rootOf target ∧
          ∀ state, Plan.Spares definition.graph entry.source target state →
            .exit state ∉ attemptedSteps (account.chapter definition) ∧
              .enter state ∉ attemptedSteps (account.chapter definition) ∧
              (account.after definition).configuration.isActive state =
                account.before.configuration.isActive state
  /-- All other state actions than those of the states that the transition does not spare may be
  exchanged. The event can be processed in the same way. -/
  indifferent {hooks : Hooks κ (StateAction κ τ ω)} :
    (∀ entry target, account.chosen = some entry → entry.kind = .external →
        entry.target = some target → ∀ state,
          ¬ Plan.Spares definition.graph entry.source target state →
            definition.KeepsHooks hooks state) →
      (Work.process (definition.withHooks hooks) account.before account.event).Performs
        (account.deeds definition) (account.after definition)

omit [DecidableEq κ] [StateKey κ] [DecidableEq τ] [Inspect τ] in
/-- Only an external transition leaves and enters states, and it spares none of them. -/
theorem Definition.exists_target_of_mem_stepsOf
    (wellFormed : definition.IsWellFormed)
    {configuration : Configuration}
    (consistent : configuration.IsConsistent definition.graph)
    {entry : Entry κ τ ω}
    (listed : entry ∈ definition.table.entries)
    {state : Nat}
    (member : .exit state ∈ stepsOf entry (definition.planOf? configuration entry) ∨
      .enter state ∈ stepsOf entry (definition.planOf? configuration entry)) :
    ∃ target, entry.kind = .external ∧ entry.target = some target ∧
      ¬ Plan.Spares definition.graph entry.source target state := by
  unfold planOf? at member
  split at member
  · rename_i target kind_eq hasTarget
    refine ⟨target, kind_eq, hasTarget, Plan.not_spares_of_mem_external wellFormed.forest
      consistent (wellFormed.sameTree listed hasTarget) ?_⟩
    simpa [stepsOf, actionSteps] using member
  · simp [stepsOf, actionSteps] at member

omit [DecidableEq τ] in
/-- An external transition has a target. -/
theorem Definition.exists_target
    (fits : definition.table.Fits definition.graph)
    {entry : Entry κ τ ω}
    (listed : entry ∈ definition.table.entries)
    (kind_eq : entry.kind = .external) :
    ∃ target, entry.target = some target := by
  obtain ⟨_, _, ⟨untargeted, entry_eq⟩ | ⟨_, target, _, _, _, _, entry_eq⟩⟩ :=
    Table.entryOf_eq_ok (fits entry listed)
  · have internal : entry.transition.effectiveKind = .internal := by
      rw [Transition.effectiveKind, untargeted]
      rfl
    rw [entry_eq, internal] at kind_eq
    contradiction
  · exact ⟨target, congrArg Entry.target entry_eq⟩

namespace Account

variable {account : Account κ τ ω}

/-- The steps of an event lead to the configuration after it. -/
theorem IsRight.configuration_eq
    (wellFormed : definition.IsWellFormed)
    (isRight : account.IsRight definition)
    (consistent : account.before.configuration.IsConsistent definition.graph) :
    (account.after definition).configuration =
      account.before.configuration.after (completedSteps (account.chapter definition)) :=
  (isRight.evolves wellFormed consistent).after_eq

/-- Where only actions are attempted the same states are active. -/
theorem IsRight.configuration_eq_before
    (wellFormed : definition.IsWellFormed)
    (isRight : account.IsRight definition)
    (consistent : account.before.configuration.IsConsistent definition.graph)
    (acts : ∀ step ∈ attemptedSteps (account.chapter definition),
      ∃ position, step = .act position) :
    (account.after definition).configuration = account.before.configuration := by
  rw [isRight.configuration_eq wellFormed consistent]
  exact Configuration.after_eq_self
    (fun step completed => acts step (mem_attemptedSteps_of_completed completed)) _

/-- What is left and entered at an event is not spared by the transition. -/
theorem IsRight.exists_target_of_mem_attemptedSteps
    (wellFormed : definition.IsWellFormed)
    (isRight : account.IsRight definition)
    (executes : account.Executes definition)
    (consistent : account.before.configuration.IsConsistent definition.graph)
    {entry : Entry κ τ ω}
    (chosen : account.chosen = some entry)
    {state : Nat}
    (member : .exit state ∈ attemptedSteps (account.chapter definition) ∨
      .enter state ∈ attemptedSteps (account.chapter definition)) :
    ∃ target, entry.kind = .external ∧ entry.target = some target ∧
      ¬ Plan.Spares definition.graph entry.source target state := by
  have carriesOut := (isRight.isCarriedOut wellFormed executes consistent chosen).carriesOut
  have included := carriesOut.attempted_isPrefix.subset
  exact Definition.exists_target_of_mem_stepsOf wellFormed consistent
    (isRight.source_active wellFormed consistent chosen).1
    (member.imp (fun left => included left) fun entered => included entered)

/-- An event that is processed leaves alone whatever is not concerned, if other state actions
make no difference. -/
theorem IsRight.keepsToScope_of_indifferent
    (wellFormed : definition.IsWellFormed)
    (fits : definition.table.Fits definition.graph)
    (isRight : account.IsRight definition)
    (executes : account.Executes definition)
    (consistent : account.before.configuration.IsConsistent definition.graph)
    (indifferent : ∀ hooks : Hooks κ (StateAction κ τ ω),
      (∀ entry target, account.chosen = some entry → entry.kind = .external →
          entry.target = some target → ∀ state,
            ¬ Plan.Spares definition.graph entry.source target state →
              definition.KeepsHooks hooks state) →
        (Work.process (definition.withHooks hooks) account.before account.event).Performs
          (account.deeds definition) (account.after definition)) :
    account.KeepsToScope definition where
  declined unchosen := by
    have nothing : attemptedSteps (account.chapter definition) = [] := by
      rw [attemptedSteps, account.filterMap_chapter (fun _ missed => missed) definition,
        (isRight.idle unchosen).2.1]
      rfl
    exact ⟨nothing, isRight.configuration_eq_before wellFormed consistent (by simp [nothing])⟩
  stays := by
    intro entry chosen internal
    have acts : ∀ step ∈ attemptedSteps (account.chapter definition),
        ∃ position, step = .act position := by
      intro step member
      cases step with
      | exit state =>
          obtain ⟨_, external, _⟩ := isRight.exists_target_of_mem_attemptedSteps wellFormed
            executes consistent chosen (.inl member)
          simp [internal] at external
      | act position => exact ⟨position, rfl⟩
      | enter state =>
          obtain ⟨_, external, _⟩ := isRight.exists_target_of_mem_attemptedSteps wellFormed
            executes consistent chosen (.inr member)
          simp [internal] at external
    exact ⟨acts, isRight.configuration_eq_before wellFormed consistent acts⟩
  moves := by
    intro entry chosen external
    obtain ⟨listed, _⟩ := isRight.source_active wellFormed consistent chosen
    obtain ⟨target, hasTarget⟩ := Definition.exists_target fits listed external
    refine ⟨target, hasTarget, wellFormed.sameTree listed hasTarget, fun state spares => ?_⟩
    have untouched : ¬ (.exit state ∈ attemptedSteps (account.chapter definition) ∨
        .enter state ∈ attemptedSteps (account.chapter definition)) := by
      intro member
      obtain ⟨other, _, sameTarget, concerned⟩ := isRight.exists_target_of_mem_attemptedSteps
        wellFormed executes consistent chosen member
      obtain rfl := Option.some.inj (hasTarget.symm.trans sameTarget)
      exact concerned spares
    obtain ⟨notLeft, notEntered⟩ := not_or.mp untouched
    have notCompleted {step : Step}
        (missed : step ∉ attemptedSteps (account.chapter definition)) :
        step ∉ completedSteps (account.chapter definition) :=
      fun completed => missed (mem_attemptedSteps_of_completed completed)
    refine ⟨notLeft, notEntered, ?_⟩
    rw [Bool.eq_iff_iff,
      (isRight.isCarriedOut wellFormed executes consistent chosen).carriesOut.isActive_iff]
    simp [notCompleted notLeft, notCompleted notEntered]
  indifferent := indifferent _

end Account

/-- Whatever callers do meanwhile, an event that is processed from a consistent configuration
leaves alone whatever is not concerned. -/
theorem Work.exists_keepsToScope
    (wellFormed : definition.IsWellFormed)
    (fits : definition.table.Fits definition.graph)
    {worker after : Worker κ}
    (consistent : worker.configuration.IsConsistent definition.graph)
    {event : Event τ}
    {deeds : List (Activity κ τ)}
    (performs : (process definition worker event).Performs deeds after) :
    ∃ account : Account κ τ ω, account.IsRight definition ∧ account.event = event ∧
      account.before = worker ∧ account.deeds definition = deeds ∧
        account.after definition = after ∧ account.KeepsToScope definition := by
  simp only [process, performs_bind_iff] at performs
  obtain ⟨_, opening, _, rfl, begins, ⟨chosen, faults⟩, selected, rest, rfl, chooses, ends⟩ :=
    performs
  have opening_eq : opening =
      told definition.observers (.begin (Context.new event (worker.active definition))) :=
    eq_of_performs_notify begins
  obtain ⟨account, isRight, rfl, rfl, rfl, deeds_eq, rfl, executes⟩ :=
    exists_account_of_choice wellFormed.forest fits chooses ends
  refine ⟨account, isRight, rfl, rfl, deeds_eq.trans (by rw [opening_eq]), rfl,
    isRight.keepsToScope_of_indifferent wellFormed fits executes consistent fun hooks keeps => ?_⟩
  -- The observers and the guards are those of before, and so is the end of the event.
  have begun : (notify (definition.withHooks hooks).observers
      (.begin (Context.new account.event (account.before.active definition)))).Performs opening
        () := begins
  rw [deeds_eq, process]
  simp only [performs_bind_iff]
  refine ⟨(), opening, _, by rw [opening_eq], begun, (account.chosen, faults), selected, rest, rfl,
    ?_, ?_⟩
  · rw [choose_withHooks]
    exact chooses
  · cases chosen : account.chosen with
    | none =>
        rw [chosen] at ends
        exact ends
    | some entry =>
        rw [chosen] at ends
        obtain ⟨listed, _⟩ := isRight.source_active wellFormed consistent chosen
        have alike : execute (definition.withHooks hooks) entry account.event
              account.before.configuration =
            execute definition entry account.event account.before.configuration := by
          refine execute_withHooks (fun state member => ?_) account.event
          obtain ⟨target, external, hasTarget, concerned⟩ :=
            Definition.exists_target_of_mem_stepsOf wellFormed consistent listed member
          exact keeps entry target chosen external hasTarget state concerned
        let context := (Context.new account.event (account.before.active definition)).fail faults
        have followed : follow (definition.withHooks hooks) account.before entry context =
            follow definition account.before entry context :=
          follow_withHooks alike
        exact (congrArg (fun work : Work κ τ ω (Worker κ) =>
          work.Performs rest (account.after definition)) followed).mpr ends

/-- An event that is processed without interruption from a consistent configuration leaves
alone whatever is not concerned. -/
theorem Worker.exists_keepsToScope
    (wellFormed : definition.IsWellFormed)
    (fits : definition.table.Fits definition.graph)
    {worker : Worker κ}
    (consistent : worker.configuration.IsConsistent definition.graph)
    (event : Event τ)
    (session : Session κ τ ω) :
    ∃ account : Account κ τ ω, account.IsRight definition ∧ account.event = event ∧
      account.before = worker ∧
        (worker.process definition event session).2.deeds =
          session.deeds ++ account.chapter definition ∧
        (worker.process definition event session).1 = account.after definition ∧
          account.KeepsToScope definition := by
  obtain ⟨deeds, performs, proceeds⟩ :=
    (Work.process definition worker event).performs_run (session.note (.began event))
  rw [Work.run_process] at performs proceeds
  obtain ⟨account, isRight, rfl, rfl, rfl, after_eq, keeps⟩ :=
    Work.exists_keepsToScope wellFormed fits consistent performs
  refine ⟨account, isRight, rfl, rfl, ?_, after_eq.symm, keeps⟩
  rw [proceeds.deeds_eq, Session.deeds_note, List.append_assoc]
  rfl

/-- Whether it is declined, is followed by an internal transition or by an external one, and
whatever fails, an event leaves alone all that is not concerned. This holds for workers that are
interrupted and for those that are not, and in every course the events are processed from
consistent configurations. -/
theorem Definition.keepsToScope
    {draft : MachineDraft κ τ ω}
    (built : draft.build = .ok definition) :
    (∀ (worker after : Worker κ) (event : Event τ) (deeds : List (Activity κ τ)),
      worker.configuration.IsConsistent definition.graph →
      (Work.process definition worker event).Performs deeds after →
        ∃ account : Account κ τ ω, account.IsRight definition ∧ account.event = event ∧
          account.before = worker ∧ account.deeds definition = deeds ∧
            account.after definition = after ∧ account.KeepsToScope definition) ∧
      (∀ (worker : Worker κ) (event : Event τ) (session : Session κ τ ω),
        worker.configuration.IsConsistent definition.graph →
          ∃ account : Account κ τ ω, account.IsRight definition ∧ account.event = event ∧
            account.before = worker ∧
              (worker.process definition event session).2.deeds =
                session.deeds ++ account.chapter definition ∧
              (worker.process definition event session).1 = account.after definition ∧
                account.KeepsToScope definition) ∧
      ∀ course : Course definition, ∃ chronicle : Chronicle κ τ ω,
        course.scene.machine.session.deeds = chronicle.deeds definition ∧
          ∀ account ∈ chronicle.accounts,
            account.before.configuration.IsConsistent definition.graph ∧
              (Work.process definition account.before account.event).Performs
                (account.deeds definition) (account.after definition) := by
  have wellFormed := isWellFormed_of_build built
  have fits := fits_of_build built
  refine ⟨fun _ _ _ _ consistent performs =>
      Work.exists_keepsToScope wellFormed fits consistent performs,
    fun _ event session consistent =>
      Worker.exists_keepsToScope wellFormed fits consistent event session, fun course => ?_⟩
  obtain ⟨_, chronicle, begins, unfolds⟩ := course.exists_unfolds_of_begins built
  refine ⟨chronicle, unfolds.deeds_eq, fun account member => ?_⟩
  obtain ⟨_, _, split⟩ := List.append_of_mem member
  obtain ⟨_, opens, before, _, performs⟩ := unfolds.stage.of_split split
  exact ⟨(begins.evolves_handles wellFormed opens before).2, performs⟩

end Events

/-! ## An example -/

namespace Definition

open Run (crossing crossingDraft midnight)

/-- A machine with a transition inside of one region. Entering its target breaks off, and so
does leaving any state but its source. -/
def narrowDraft : MachineDraft String String Unit :=
  let breakOff : StateAction String String Unit :=
    ⟨fun world => .done (.panicked .unknown, world)⟩
  { crossingDraft ["on", "mute", "loud"] with
    blueprint := (crossingDraft ["on", "mute", "loud"]).blueprint.onEntry "green" breakOff
    transitions := [Transition.external "red" "turn" "green"] }

/-- What the draft describes. -/
def narrow : Definition String String Unit :=
  { crossing [] with
    table := ⟨narrowDraft.transitions.filterMap fun transition =>
      (Table.entryOf (crossing []).graph transition).toOption⟩
    hooks := narrowDraft.blueprint.hooks }

/-- A worker in the initial configuration. -/
def narrowWorker : Worker String :=
  { (Machine.new narrow midnight ()).freshWorker with
    configuration := ⟨#[true, true, false, true, false]⟩ }

/-- The session of the machine at its creation. -/
def narrowSession : Session String String Unit :=
  (Machine.new narrow midnight ()).session

/-- The source is left, and entering the target is attempted. The domain and its other region
stay as they are. -/
theorem keepsToScope_narrow :
    narrowDraft.build = .ok narrow ∧
      (narrowWorker.process narrow (.new .nil "turn") narrowSession).1.configuration =
        ⟨#[true, false, false, true, false]⟩ ∧
      attemptedSteps (narrowWorker.process narrow (.new .nil "turn") narrowSession).2.deeds =
        [.exit 1, .enter 2] ∧
      Plan.Spares narrow.graph 1 2 0 ∧ Plan.Spares narrow.graph 1 2 3 ∧
      narrowWorker.configuration.IsConsistent narrow.graph ∧
      ∃ account : Account String String Unit, account.IsRight narrow ∧
        account.event = .new .nil "turn" ∧ account.before = narrowWorker ∧
          (narrowWorker.process narrow (.new .nil "turn") narrowSession).2.deeds =
            narrowSession.deeds ++ account.chapter narrow ∧
          (narrowWorker.process narrow (.new .nil "turn") narrowSession).1 =
            account.after narrow ∧
            account.KeepsToScope narrow := by
  have built : narrowDraft.build = .ok narrow := by cbv
  have forest := (isWellFormed_of_build built).forest
  have consistent : narrowWorker.configuration.IsConsistent narrow.graph := by
    have restored : Configuration.ofLeaves narrow.graph [1, 3] =
        .ok narrowWorker.configuration := by cbv
    exact Configuration.isConsistent_of_ofLeaves forest restored
  have hasDomain : Plan.domain? narrow.graph 1 2 = some 0 := by cbv
  have free : ¬ Plan.HoldsEnd narrow.graph 1 2 0 (narrow.graph.regionOf 3) := by
    rw [← Plan.mem_affectedRegions_iff forest]
    have affected : Plan.affectedRegions narrow.graph 0 1 2 = [0] := by cbv
    have region : narrow.graph.regionOf 3 = 1 := by cbv
    simp [affected, region]
  exact ⟨built, by cbv, by cbv, .above hasDomain (forest.within_refl 0),
    .region hasDomain (by cbv) free (forest.within_refl 3), consistent,
    (keepsToScope built).2.1 narrowWorker (.new .nil "turn") narrowSession consistent⟩

end Definition
end Statechart
