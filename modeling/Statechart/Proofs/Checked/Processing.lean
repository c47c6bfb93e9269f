import Statechart.Machine.Worker
import Statechart.Proofs.Checked.Plans
import Statechart.Proofs.Checked.Selection
import Statechart.Proofs.Machine.Worker

/-!
# The checked worker

The checked worker looks every state up that it plans with, leaves, enters or names, and every
flag that it sets. It fails if one of them is missing, or if a walk leads on when its bound is
used up. An external transition without a target is undefined for it. The worker of a definition
that has been built never fails if the bound is at least the number of states: it starts,
processes events and ends like the plain worker.
-/

namespace Statechart

variable {κ τ ω : Type} {graph : Graph κ}

/-- The state that a step of a transition from a source is about. -/
def Step.subject (source : Nat) : Step → Nat
  | .exit state => state
  | .act _ => source
  | .enter state => state

/-! ## Entries that have been accepted -/

/-- An entry that can be carried out: its ends are states, an external transition has a target in
the tree of its source, and an internal one has no target but its source. -/
structure Entry.IsSound (graph : Graph κ) (entry : Entry κ τ ω) : Prop where
  /-- The source is a state. -/
  source_lt : entry.source < graph.size
  /-- The target is a state. -/
  target_lt {target : Nat} : entry.target = some target → target < graph.size
  /-- An external transition has a target, which lies in the tree of the source. -/
  of_external :
    entry.kind = .external →
      ∃ target, entry.target = some target ∧ graph.rootOf entry.source = graph.rootOf target
  /-- An internal transition stays at its source. -/
  of_internal : entry.kind = .internal → entry.target = none ∨ entry.target = some entry.source

/-- The entries of a table that fits are sound. -/
theorem Table.Fits.isSound
    [DecidableEq κ]
    [StateKey κ]
    [Inspect τ]
    {table : Table κ τ ω}
    (fits : table.Fits graph)
    {entry : Entry κ τ ω}
    (listed : entry ∈ table.entries) :
    entry.IsSound graph := by
  obtain ⟨source, found, ⟨untargeted, entry_eq⟩ | ⟨key, target, names, targetFound, stays,
    sameTree, entry_eq⟩⟩ := entryOf_eq_ok (fits entry listed)
  · rw [entry_eq]
    refine ⟨Graph.lt_size_of_indexOf? found, nofun, fun isExternal => ?_, fun _ => .inl rfl⟩
    simp [Transition.effectiveKind, untargeted] at isExternal
  · rw [entry_eq]
    refine ⟨Graph.lt_size_of_indexOf? found, ?_, fun _ => ⟨target, rfl, sameTree⟩, ?_⟩
    · rintro _ ⟨⟩
      exact Graph.lt_size_of_indexOf? targetFound
    · exact fun isInternal => .inr (congrArg some (stays isInternal))

section Subjects

variable {entry : Entry κ τ ω} (sound : entry.IsSound graph) {step : Step}

include sound

theorem Entry.IsSound.subject_lt_of_act (listed : step ∈ Definition.actionSteps entry) :
    step.subject entry.source < graph.size := by
  obtain ⟨position, _, rfl⟩ := List.mem_map.mp listed
  exact sound.source_lt

/-- The steps of a sound entry are about states if its plan is. -/
theorem Entry.IsSound.subject_lt
    {plan : Plan}
    (exitsInside : ∀ state ∈ plan.exits, state < graph.size)
    (entriesInside : ∀ state ∈ plan.entries, state < graph.size)
    (listed : step ∈ Definition.stepsOf entry (some plan)) :
    step.subject entry.source < graph.size := by
  simp only [Definition.stepsOf, List.mem_append, List.mem_map] at listed
  rcases listed with (⟨state, left, rfl⟩ | acted) | ⟨state, entered, rfl⟩
  · exact exitsInside state left
  · exact sound.subject_lt_of_act acted
  · exact entriesInside state entered

end Subjects

namespace Checked

/-! ## Naming states and taking steps -/

/-- The keys of states that must be there. -/
def keys (graph : Graph κ) (states : List Nat) : Option (List κ) :=
  states.mapM graph.key?

/-- Makes sure that a state and its flag are there. -/
def present (graph : Graph κ) (configuration : Configuration) (state : Nat) : Option Unit := do
  let _ ← graph.nodes[state]?
  let _ ← configuration.flags[state]?

/-- Takes the steps of a transition from a source one by one up to the first failure. -/
def takeSteps
    (graph : Graph κ)
    (source : Nat)
    (attempt : Session κ τ ω → Step → Except StepError Unit × Session κ τ ω) :
    List Step → Configuration → Session κ τ ω → Option (Progress κ τ ω)
  | [], configuration, session => some ⟨none, configuration, session⟩
  | step :: steps, configuration, session => do
      present graph configuration (step.subject source)
      match attempt session step with
      | (.error error, session) =>
          return ⟨some error, configuration, session.note (.failed step error)⟩
      | (.ok (), session) =>
          takeSteps graph source attempt steps (step.apply configuration)
            (session.note (.completed step))

section Worker

variable [DecidableEq κ] [StateKey κ] [DecidableEq τ] [Inspect τ]

/-- Carries out a selected transition. An external one must have a target. -/
def execute
    (definition : Definition κ τ ω)
    (bound : Nat)
    (entry : Entry κ τ ω)
    (event : Event τ)
    (configuration : Configuration)
    (session : Session κ τ ω) : Option (Progress κ τ ω) := do
  let attempt := definition.attempt entry.source entry.transition.actions event
  match entry.kind, entry.target with
  | .internal, _ =>
      takeSteps definition.graph entry.source attempt (Definition.actionSteps entry)
        configuration session
  | .external, none => none
  | .external, some target =>
      let plan ← external definition.graph configuration bound entry.source target
      let left ← keys definition.graph plan.exits
      let entered ← keys definition.graph plan.entries
      takeSteps definition.graph entry.source attempt (Definition.stepsOf entry (some plan))
        configuration (session.note (.planned left entered))

/-- The keys of the active leaves. -/
def active (definition : Definition κ τ ω) (worker : Worker κ) : Option (List κ) := do
  keys definition.graph (← leaves definition.graph worker.configuration)

/-- Publishes what the worker shows of itself. -/
def publish
    (definition : Definition κ τ ω)
    (worker : Worker κ)
    (session : Session κ τ ω) : Option (Session κ τ ω) := do
  return session.publish ⟨← active definition worker, worker.history, worker.metadata⟩

/-- Counts an event and publishes. -/
def finishEvent
    (definition : Definition κ τ ω)
    (worker : Worker κ)
    (session : Session κ τ ω) : Option (Worker κ × Session κ τ ω) := do
  let metadata :=
    { worker.metadata with
      count := worker.metadata.count + 1
      updatedAt := session.clock }
  let worker := { worker with metadata }
  return (worker, ← publish definition worker session)

/-- Ends an event that no transition handles. -/
def decline
    (definition : Definition κ τ ω)
    (worker : Worker κ)
    (context : Context κ τ)
    (session : Session κ τ ω) : Option (Worker κ × Session κ τ ω) := do
  let (worker, session) ← finishEvent definition worker session
  let session := Worker.reportErrors definition context session
  return (worker, session.notify definition.observers (.declined context))

/-- Carries out the transition selected for an event and ends the event. -/
def follow
    (definition : Definition κ τ ω)
    (bound : Nat)
    (worker : Worker κ)
    (entry : Entry κ τ ω)
    (context : Context κ τ)
    (session : Session κ τ ω) : Option (Worker κ × Session κ τ ω) := do
  let source ← definition.graph.key? entry.source
  let target ← entry.target.mapM definition.graph.key?
  let context := context.select source target entry.transition.describe
  let progress ← execute definition bound entry context.event worker.configuration session
  let context := context.fail progress.failure.toList
  let moved := { worker with configuration := progress.configuration }
  let after ← active definition moved
  let recorded := match progress.failure with
    | some _ => moved
    | none =>
        { moved with
          history := moved.history.record
            ⟨context.active, after, inspect context.event.trigger, context.event.number,
              progress.session.clock⟩ }
  let (worker, session) ← finishEvent definition recorded progress.session
  let session := Worker.reportErrors definition context session
  match progress.failure with
  | some _ => return (worker, session)
  | none =>
      return (worker,
        session.notify definition.observers (.completed context.active after context))

/-- Processes one event to its end. -/
def process
    (definition : Definition κ τ ω)
    (bound : Nat)
    (rows : Rows κ τ ω)
    (worker : Worker κ)
    (event : Event τ)
    (session : Session κ τ ω) : Option (Worker κ × Session κ τ ω) := do
  let found ← leaves definition.graph worker.configuration
  let context := Context.new event (← keys definition.graph found)
  let session :=
    (session.note (.began event)).notify definition.observers (.begin context)
  let (chosen, faults, session) ← select definition bound rows event found session
  let context := context.fail faults
  match chosen with
  | none => decline definition worker context session
  | some entry => follow definition bound worker entry context session

/-- Enters the first configuration. -/
def enterInitial
    (definition : Definition κ τ ω)
    (bound : Nat)
    (worker : Worker κ)
    (session : Session κ τ ω) : Option (Worker κ × Session κ τ ω) := do
  let attempt (session : Session κ τ ω) : Step → Except StepError Unit × Session κ τ ω
    | .enter state =>
        let (result, session) :=
          Definition.runStateAction session (definition.entryAction? state)
        let name := definition.graph.nameOf state
        match result with
        | .ok () => (.ok (), session)
        | .error failure =>
            (.error (.entryFailed name failure), session.note (.startFailed name failure))
    | _ => (.ok (), session)
  let states ← initial definition.graph bound
  let progress ← takeSteps definition.graph 0 attempt (states.map .enter)
    worker.configuration session
  let worker := { worker with configuration := progress.configuration }
  let active ← active definition worker
  let session := match progress.failure with
    | some error =>
        progress.session.notify definition.observers (.lifecycle .start active error)
    | none => progress.session.note (.started active definition.observers.length)
  return (worker, session)

/-- Leaves states one by one. -/
def leaveAll (definition : Definition κ τ ω) :
    List Nat → Worker κ → Session κ τ ω → Option (Worker κ × Session κ τ ω)
  | [], worker, session => some (worker, session)
  | state :: states, worker, session => do
      present definition.graph worker.configuration state
      let (result, session) :=
        Definition.runStateAction session (definition.exitAction? state)
      let name := definition.graph.nameOf state
      let active ← active definition worker
      let session := match result with
        | .ok () => session
        | .error failure =>
            (session.note (.stopFailed name failure)).notify definition.observers
              (.lifecycle .stop active (.exitFailed name failure))
      leaveAll definition states
        { worker with configuration := worker.configuration.deactivate state }
        (session.note (.completed (.exit state)))

/-- Leaves everything that is active and publishes. -/
def stop
    (definition : Definition κ τ ω)
    (bound : Nat)
    (worker : Worker κ)
    (session : Session κ τ ω) : Option (Worker κ × Session κ τ ω) := do
  let states ← shutdown definition.graph worker.configuration bound
  let (worker, session) ← leaveAll definition states worker session
  return (worker, ← publish definition worker session)

end Worker

/-! ## The results -/

section Steps

variable {configuration : Configuration}

theorem keys_eq
    {states : List Nat}
    (inside : ∀ state ∈ states, state < graph.size) :
    keys graph states = some (graph.keys states) := by
  induction states with
  | nil => rfl
  | cons state states inductionHypothesis =>
      obtain ⟨stateInside, statesInside⟩ := List.forall_mem_cons.mp inside
      obtain ⟨key, isKey⟩ := Graph.exists_key stateInside
      rw [keys] at inductionHypothesis
      rw [keys, List.mapM_cons, isKey, inductionHypothesis statesInside, Graph.keys, Graph.keys,
        List.filterMap_cons_some isKey]
      rfl

variable (flagged : configuration.flags.size = graph.size)

include flagged

theorem present_eq
    {state : Nat}
    (inside : state < graph.size) :
    present graph configuration state = some () := by
  rw [present, Array.getElem?_eq_getElem inside, Array.getElem?_eq_getElem (flagged ▸ inside)]
  rfl

/-- Taking steps about states finds everything. -/
theorem takeSteps_eq
    {source : Nat}
    {attempt : Session κ τ ω → Step → Except StepError Unit × Session κ τ ω}
    {steps : List Step}
    (inside : ∀ step ∈ steps, step.subject source < graph.size)
    (session : Session κ τ ω) :
    takeSteps graph source attempt steps configuration session =
      some (Statechart.takeSteps attempt steps configuration session) := by
  induction steps generalizing configuration session with
  | nil => rfl
  | cons step steps inductionHypothesis =>
      obtain ⟨stepInside, stepsInside⟩ := List.forall_mem_cons.mp inside
      rw [takeSteps, present_eq flagged stepInside, Statechart.takeSteps]
      obtain ⟨_ | _, asked⟩ := attempt session step
      · rfl
      · exact inductionHypothesis ((Step.flags_size_apply _ _).trans flagged) stepsInside _

end Steps

/-- Steps do not change the number of flags. -/
theorem flags_size_takeSteps
    (attempt : Session κ τ ω → Step → Except StepError Unit × Session κ τ ω)
    (steps : List Step)
    (configuration : Configuration)
    (session : Session κ τ ω) :
    (Statechart.takeSteps attempt steps configuration session).configuration.flags.size =
      configuration.flags.size := by
  induction steps generalizing configuration session with
  | nil => rfl
  | cons step steps inductionHypothesis =>
      rw [Statechart.takeSteps]
      obtain ⟨_ | _, asked⟩ := attempt session step
      · rfl
      · exact (inductionHypothesis _ _).trans (Step.flags_size_apply _ _)

section Showing

variable
  {definition : Definition κ τ ω}
  (forest : definition.graph.IsForest)
  (worker : Worker κ)
  (flagged : worker.configuration.flags.size = definition.graph.size)

include forest flagged

theorem active_eq : active definition worker = some (worker.active definition) := by
  have inside : ∀ leaf ∈ worker.configuration.leaves definition.graph,
      leaf < definition.graph.size := fun leaf listed =>
    forest.mem_preorder_iff.mp (List.mem_filter.mp listed).1
  rw [active, leaves_eq forest flagged]
  exact keys_eq inside

theorem publish_eq (session : Session κ τ ω) :
    publish definition worker session = some (worker.publish definition session) := by
  rw [publish, active_eq forest worker flagged]
  rfl

theorem finishEvent_eq (session : Session κ τ ω) :
    finishEvent definition worker session = some (worker.finishEvent definition session) := by
  let counted := (worker.finishEvent definition session).1
  have published := publish_eq forest counted flagged session
  rw [finishEvent]
  simp only [counted, Worker.finishEvent] at published
  rw [published]
  rfl

theorem decline_eq
    [DecidableEq κ]
    [StateKey κ]
    [Inspect τ]
    (context : Context κ τ)
    (session : Session κ τ ω) :
    decline definition worker context session =
      some (worker.decline definition context session) := by
  rw [decline, finishEvent_eq forest worker flagged]
  rfl

end Showing

section Executing

variable
  [DecidableEq κ]
  [StateKey κ]
  [Inspect τ]
  {definition : Definition κ τ ω}
  (forest : definition.graph.IsForest)
  {bound : Nat}
  (enough : definition.graph.size ≤ bound)
  {configuration : Configuration}
  (consistent : configuration.IsConsistent definition.graph)
  {entry : Entry κ τ ω}
  (sound : entry.IsSound definition.graph)
  (isActive : configuration.isActive entry.source = true)

include forest enough consistent sound isActive

/-- Carrying out a selected entry ends and finds everything. -/
theorem execute_eq (event : Event τ) (session : Session κ τ ω) :
    execute definition bound entry event configuration session =
      some (definition.execute entry event configuration session) := by
  have flagged := consistent.flags_size
  rw [execute, Definition.execute]
  cases kind_eq : entry.kind with
  | internal =>
      have noPlan : definition.planOf? configuration entry = none := by
        simp [Definition.planOf?, kind_eq]
      rw [noPlan]
      exact takeSteps_eq flagged (fun _ => sound.subject_lt_of_act) session
  | external =>
      obtain ⟨target, hasTarget, sameTree⟩ := sound.of_external kind_eq
      have planned : definition.planOf? configuration entry =
          some (Plan.external definition.graph configuration entry.source target) := by
        simp [Definition.planOf?, kind_eq, hasTarget]
      have exitsInside : ∀ state ∈ (Plan.external definition.graph configuration entry.source
          target).exits, state < definition.graph.size := fun state left =>
        consistent.lt_size ((Plan.mem_exits_external_iff forest consistent).mp left).1
      have entriesInside : ∀ state ∈ (Plan.external definition.graph configuration entry.source
          target).entries, state < definition.graph.size := fun state entered =>
        Plan.lt_size_of_isAffected forest consistent isActive sameTree
          ((Plan.mem_entries_external_iff forest sameTree).mp entered).1
      rw [planned, hasTarget]
      simp only [external_eq forest enough sound.source_lt (sound.target_lt hasTarget) sameTree
        flagged, Option.bind_eq_bind, Option.bind_some, keys_eq exitsInside, keys_eq entriesInside]
      exact takeSteps_eq flagged (fun _ => sound.subject_lt exitsInside entriesInside) _

omit forest enough consistent sound isActive in
theorem flags_size_execute
    (definition : Definition κ τ ω)
    (entry : Entry κ τ ω)
    (event : Event τ)
    (configuration : Configuration)
    (session : Session κ τ ω) :
    (definition.execute entry event configuration session).configuration.flags.size =
      configuration.flags.size :=
  flags_size_takeSteps _ _ _ _

end Executing

section Processing

variable
  [DecidableEq κ]
  [StateKey κ]
  [DecidableEq τ]
  [Inspect τ]
  {definition : Definition κ τ ω}
  (wellFormed : definition.IsWellFormed)
  {bound : Nat}
  (enough : definition.graph.size ≤ bound)
  (fits : definition.table.Fits definition.graph)
  {worker : Worker κ}
  (consistent : worker.configuration.IsConsistent definition.graph)

include wellFormed enough fits consistent

omit [DecidableEq τ] in
/-- Following a selected entry ends and finds everything. -/
theorem follow_eq
    {entry : Entry κ τ ω}
    (listed : entry ∈ definition.table.entries)
    (isActive : worker.configuration.isActive entry.source = true)
    (context : Context κ τ)
    (session : Session κ τ ω) :
    follow definition bound worker entry context session =
      some (worker.follow definition entry context session) := by
  have sound := fits.isSound listed
  have source_eq : definition.graph.key? entry.source = some entry.transition.source :=
    wellFormed.forest.indexOf?_eq_some_iff.mp (Table.source_of_entryOf (fits entry listed)).2
  have target_eq : entry.target.mapM definition.graph.key? =
      some (entry.target.bind definition.graph.key?) := by
    cases hasTarget : entry.target with
    | none => rfl
    | some target =>
        obtain ⟨key, isKey⟩ := Graph.exists_key (sound.target_lt hasTarget)
        simp [isKey]
  rw [follow, source_eq, target_eq]
  simp only [Option.bind_eq_bind, Option.bind_some,
    execute_eq wellFormed.forest enough consistent sound isActive]
  rw [Worker.follow]
  have flagged := (flags_size_execute definition entry
    (context.select entry.transition.source (entry.target.bind definition.graph.key?)
      entry.transition.describe).event worker.configuration session).trans consistent.flags_size
  generalize definition.execute entry _ worker.configuration session = progress at flagged ⊢
  obtain ⟨failure | failure, after, final⟩ := progress
  · simp only [active_eq wellFormed.forest ⟨after, worker.history, worker.metadata⟩ flagged,
      finishEvent_eq wellFormed.forest ⟨after, _, worker.metadata⟩ flagged, Option.bind_some]
    rfl
  · simp only [active_eq wellFormed.forest ⟨after, worker.history, worker.metadata⟩ flagged,
      finishEvent_eq wellFormed.forest ⟨after, _, worker.metadata⟩ flagged, Option.bind_some]
    rfl

/-- Processing an event ends and finds everything. -/
theorem process_eq (event : Event τ) (session : Session κ τ ω) :
    process definition bound (Rows.ofTable definition.graph definition.table) worker event
        session =
      some (worker.process definition event session) := by
  have forest := wellFormed.forest
  have inside : ∀ leaf ∈ worker.configuration.leaves definition.graph,
      leaf < definition.graph.size := fun leaf listed =>
    forest.mem_preorder_iff.mp (List.mem_filter.mp listed).1
  rw [process, leaves_eq forest consistent.flags_size]
  simp only [Option.bind_eq_bind, Option.bind_some, keys_eq inside, select_eq forest enough inside]
  unfold Worker.process
  extract_lets leaves context begun candidates
  rcases choice : definition.choose event candidates begun with ⟨_ | entry, faults, asked⟩
  · exact decline_eq forest worker consistent.flags_size _ _
  · have member : entry ∈ candidates :=
      Definition.mem_of_choose_eq_some (congrArg Prod.fst choice)
    obtain ⟨listed, isActive⟩ := Definition.mem_candidatesFrom wellFormed consistent member
    exact follow_eq wellFormed enough fits consistent listed isActive _ _

end Processing

section Ends

variable
  [DecidableEq κ]
  [StateKey κ]
  {definition : Definition κ τ ω}
  (forest : definition.graph.IsForest)
  {worker : Worker κ}
  (flagged : worker.configuration.flags.size = definition.graph.size)

include forest flagged

/-- Entering the first configuration ends and finds everything. -/
theorem enterInitial_eq
    {bound : Nat}
    (enough : definition.graph.size ≤ bound)
    (session : Session κ τ ω) :
    enterInitial definition bound worker session =
      some (worker.enterInitial definition session) := by
  have inside : ∀ step ∈ (Plan.initial definition.graph).map Step.enter,
      step.subject 0 < definition.graph.size := by
    intro step listed
    obtain ⟨state, entered, rfl⟩ := List.mem_map.mp listed
    exact ((Plan.mem_initial_iff forest).mp entered).1
  rw [enterInitial, initial_eq forest enough]
  simp only [Option.bind_eq_bind, Option.bind_some, takeSteps_eq flagged inside]
  rw [active_eq forest]
  · rfl
  · exact (flags_size_takeSteps _ _ _ _).trans flagged

theorem leaveAll_eq
    {states : List Nat}
    (inside : ∀ state ∈ states, state < definition.graph.size)
    (session : Session κ τ ω) :
    leaveAll definition states worker session =
      some (Worker.leaveAll definition states worker session) := by
  induction states generalizing worker session with
  | nil => rfl
  | cons state states inductionHypothesis =>
      obtain ⟨stateInside, statesInside⟩ := List.forall_mem_cons.mp inside
      let left : Worker κ :=
        { worker with configuration := worker.configuration.deactivate state }
      have stillFlagged : left.configuration.flags.size = definition.graph.size :=
        (Step.flags_size_apply worker.configuration (.exit state)).trans flagged
      rw [leaveAll, present_eq flagged stateInside, active_eq forest worker flagged,
        Worker.leaveAll]
      exact inductionHypothesis stillFlagged statesInside _

omit forest flagged in
/-- Leaving states does not change the number of flags. -/
theorem flags_size_leaveAll
    (definition : Definition κ τ ω)
    (states : List Nat)
    (worker : Worker κ)
    (session : Session κ τ ω) :
    (Worker.leaveAll definition states worker session).1.configuration.flags.size =
      worker.configuration.flags.size := by
  induction states generalizing worker session with
  | nil => rfl
  | cons state states inductionHypothesis =>
      rw [Worker.leaveAll]
      exact (inductionHypothesis _ _).trans
        (Step.flags_size_apply worker.configuration (.exit state))

omit flagged in
/-- Leaving everything at the end ends and finds everything. -/
theorem stop_eq
    {bound : Nat}
    (enough : definition.graph.size ≤ bound)
    (consistent : worker.configuration.IsConsistent definition.graph)
    (session : Session κ τ ω) :
    stop definition bound worker session = some (worker.shutdown definition session) := by
  have flagged := consistent.flags_size
  have inside : ∀ state ∈ Plan.shutdown definition.graph worker.configuration,
      state < definition.graph.size := fun state left =>
    consistent.lt_size ((Plan.mem_shutdown_iff forest consistent).mp left)
  have stillFlagged := (flags_size_leaveAll definition
    (Plan.shutdown definition.graph worker.configuration) worker session).trans flagged
  rw [stop, shutdown_eq forest flagged enough]
  simp only [Option.bind_eq_bind, Option.bind_some, leaveAll_eq forest flagged inside,
    publish_eq forest _ stillFlagged]
  rfl

end Ends
end Checked
end Statechart
