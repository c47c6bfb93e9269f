import Statechart.Proofs.Machine.Attempts
import Statechart.Proofs.Machine.Order

/-!
# Going on after failures

A step that fails ends its transition, or the start, and nothing else. What was done until
then stays done, the one failure is told, and the worker goes on to the next event.
-/

namespace Statechart

variable {κ τ ω : Type} [DecidableEq κ] [StateKey κ]

/-! ## The start -/

/-- A worker has entered its first configuration up to the first entry action that failed. -/
structure Worker.IsStarted
    (definition : Definition κ τ ω)
    (opened : List (Activity κ τ))
    (failure : Option StepError)
    (worker : Worker κ) : Prop where
  /-- The states are entered in turn. -/
  carriesOut :
    CarriesOut definition.entryDutyOf? (Configuration.empty definition.graph.size)
      worker.configuration ((Plan.initial definition.graph).map .enter) (attemptedSteps opened)
      (completedSteps opened) failure
  /-- Exactly the states whose entry is completed are active. -/
  isActive_iff (state : Nat) :
    worker.configuration.isActive state = true ↔ .enter state ∈ completedSteps opened
  /-- Each observer hears of the failure with the leaves that are active by then, and of
  nothing else. -/
  received_eq {observer : Nat} : observer < definition.observers.length →
    received observer opened =
      failure.toList.map (.lifecycle .start (worker.active definition))

namespace Work

variable
  {definition : Definition κ τ ω}
  {worker after : Worker κ}
  {deeds : List (Activity κ τ)}

/-- While states are entered at the start nobody is told. -/
theorem received_entering
    {steps : List Step}
    {configuration reached : Configuration}
    {failure : Option StepError}
    (performs : (takeSteps (attemptEntry definition) steps configuration).Performs deeds
      (failure, reached))
    (observer : Nat) :
    received observer deeds = [] := by
  obtain ⟨_, taken, _⟩ := performs_takeSteps_attemptEntry performs
  rw [received, List.filterMap_eq_nil_iff]
  intro deed member
  rcases taken.mem_cases member with ⟨_, rfl⟩ | ⟨_, _, _, failed, member⟩ | ⟨_, _, rfl, _⟩
  · rfl
  · cases failed
    rw [List.mem_singleton.mp member]
    rfl
  · rfl

omit [DecidableEq κ] [StateKey κ] in
/-- At the end of the start each observer hears of the failure, if there is one. -/
theorem received_starting
    {observer : Nat}
    (present : observer < definition.observers.length)
    (worker : Worker κ)
    (failure : Option StepError) :
    received observer (starting definition worker failure : List (Activity κ τ)) =
      failure.toList.map (.lifecycle .start (worker.active definition)) := by
  cases failure with
  | none => rfl
  | some error => exact received_told present _

/-- A worker that begins with nothing enters states up to the first failure. -/
theorem exists_isStarted
    (forest : definition.graph.IsForest)
    (nothing : worker.configuration = Configuration.empty definition.graph.size)
    (performs : (thenPublish definition (enterInitial definition worker)).Performs deeds after) :
    ∃ failure, after.IsStarted definition deeds failure := by
  obtain ⟨_, rfl, enters⟩ := performs_thenPublish performs
  obtain ⟨failure, steps, takes, rfl, _⟩ := performs_enterInitial_takeSteps enters
  have reported (step : Step) (duty : Duty κ τ ω) (due : definition.entryDutyOf? step = some duty)
      (cause : Failure) (activity : Activity κ τ) (member : activity ∈ duty.report cause) :
      activity.attemptedStep? = none := by
    cases step with
    | exit state => contradiction
    | act position => contradiction
    | enter state =>
        obtain ⟨_, _, rfl⟩ := Option.map_eq_some_iff.mp due
        rw [List.mem_singleton.mp member]
        rfl
  have exitsFirst : ExitsFirst ((Plan.initial definition.graph).map .enter) := by
    simpa using exitsFirst_plan [] [] (Plan.initial definition.graph)
  rw [nothing] at takes
  have carriesOut := carriesOut_of_performs_takeSteps (recorded_attemptEntry definition) reported
    (Configuration.isConsistent_empty definition.graph).flags_size
    (Plan.soundSteps_initial forest) exitsFirst takes
  obtain ⟨completed_eq, attempted_eq⟩ :
      completedSteps (steps ++ starting definition after failure ++
          [.published (after.snapshot definition)]) = completedSteps steps ∧
        attemptedSteps (steps ++ starting definition after failure ++
          [.published (after.snapshot definition)]) = attemptedSteps steps := by
    rw [List.append_assoc]
    refine steps_append_of_missed steps fun activity member => ?_
    rcases List.mem_append.mp member with ending | published
    · exact (isQuiet_of_mem_starting ending).1
    · rw [List.mem_singleton.mp published]
      rfl
  rw [← completed_eq, ← attempted_eq] at carriesOut
  exact ⟨failure, {
    carriesOut := carriesOut
    isActive_iff := fun state => by rw [carriesOut.isActive_iff]; simp
    received_eq := by
      intro observer present
      have entering := received_entering takes observer
      have ending := received_starting present after failure
      rw [received] at entering ending ⊢
      rw [List.filterMap_append, List.filterMap_append, entering, ending]
      exact List.append_nil _ }⟩

end Work

/-- A machine that has not begun starts and runs, whether entry actions fail or not. -/
theorem Machine.start_of_created
    {machine : Machine κ τ ω}
    (created : machine.session.phase = .created) :
    (machine.start true).1 = .ok () ∧ (machine.start true).2.session.phase = .running := by
  rw [start, launch_of_created created]
  refine ⟨rfl, ?_⟩
  have phase_eq := (Work.enterInitial machine.definition machine.freshWorker).phase_run
    { machine.session with phase := .running, number := 0 }
  rw [Work.run_enterInitial] at phase_eq
  exact phase_eq

/-! ## The next event -/

section Courses

variable [DecidableEq τ] [Inspect τ] {definition : Definition κ τ ω}

namespace Scene

/-- A worker that waits for its next task comes to the oldest event in the queue. -/
theorem exists_takes_up
    {scene : Scene κ τ ω}
    (idle : scene.hand = none)
    {worker : Worker κ}
    (isWorker : scene.machine.worker = some worker)
    (goesOn : scene.told = false)
    {event : Event τ}
    {later : List (Event τ)}
    (waiting : scene.machine.session.queue.events = event :: later) :
    ∃ count, (scene.perform (List.replicate count (.operation .advance))).hand =
      some (.event event, Work.process scene.machine.definition worker event) := by
  -- Each marker before the event takes one move.
  generalize items_eq : scene.machine.session.queue.items = items
  induction items generalizing scene with
  | nil => simp [Queue.events, items_eq] at waiting
  | cons command items inductionHypothesis =>
      obtain ⟨⟨taken, queue⟩, popped⟩ : ∃ result,
          scene.machine.session.queue.pop? = some result := by
        rw [← Option.ne_none_iff_exists', ne_eq, Queue.pop?_eq_none_iff, items_eq]
        exact List.cons_ne_nil _ _
      have split := Queue.items_of_pop?_eq_some popped
      obtain ⟨rfl, rfl⟩ := List.cons.inj (items_eq.symm.trans split)
      cases command with
      | event first =>
          obtain rfl : first = event := by
            rw [Queue.events, items_eq] at waiting
            exact (List.cons.inj waiting).1
          refine ⟨1, ?_⟩
          simp [Scene.apply, advance, idle, takeUp, isWorker, goesOn, popped]
      | marker ticket =>
          have skipped : scene.apply (.operation .advance) =
              { scene with
                machine :=
                  { scene.machine with
                    session := { scene.machine.session with queue }
                    answers := (ticket, .ok ()) :: scene.machine.answers } } := by
            simp [Scene.apply, advance, idle, takeUp, isWorker, goesOn, popped]
          have stillWaiting :
              (scene.apply (.operation .advance)).machine.session.queue.events =
                event :: later := by
            rw [skipped]
            rw [Queue.events, items_eq] at waiting
            exact waiting
          obtain ⟨count, begins⟩ := inductionHypothesis (by rw [skipped]; exact idle)
            (by rw [skipped]; exact isWorker) (by rw [skipped]; exact goesOn) stillWaiting
            (by rw [skipped])
          refine ⟨count + 1, ?_⟩
          rw [List.replicate_succ, perform_cons, begins, skipped]

namespace Unfolds

variable
  {opening : Work κ τ ω (Worker κ)}
  {base : UInt64}
  {blank : Snapshot κ}
  {scene : Scene κ τ ω}
  {chronicle : Chronicle κ τ ω}
  (unfolds : scene.Unfolds definition opening base blank chronicle)
  (forest : definition.graph.IsForest)
  (fits : definition.table.Fits definition.graph)

include unfolds forest fits

/-- When the task in hand is finished the chronicle has gone on. -/
theorem complete :
    ∃ later, scene.complete.Unfolds definition opening base blank later := by
  obtain ⟨count, completes⟩ := scene.exists_perform_eq_complete
  rw [← completes]
  exact unfolds.perform forest fits (List.replicate count (.operation .advance))

/-- A worker that has not been told to stop is still there when it has finished its task. -/
theorem exists_worker_complete (goesOn : scene.told = false) :
    ∃ worker, scene.complete.machine.worker = some worker := by
  obtain ⟨_, later⟩ := unfolds.complete forest fits
  have stage := later.stage
  rw [scene.hand_complete, scene.told_complete, goesOn] at stage
  generalize scene.complete.machine.worker = remaining at stage
  cases stage with
  | idle _ _ => exact ⟨_, rfl⟩

/-- A worker finishes its task if it goes on long enough. Its machine does not stop on account of
that, and unless the worker has been told to stop it waits for its next task. -/
theorem exists_finishes :
    ∃ count, let later := scene.perform (List.replicate count (.operation .advance))
      later.hand = none ∧
        later.machine.session.phase = scene.machine.session.phase ∧
        (scene.told = false → later.machine.worker.isSome = true) := by
  obtain ⟨count, completes⟩ := scene.exists_perform_eq_complete
  refine ⟨count, ?_⟩
  rw [completes]
  exact ⟨scene.hand_complete, scene.phase_complete, fun goesOn =>
    Option.isSome_iff_exists.mpr (unfolds.exists_worker_complete forest fits goesOn)⟩

/-- A worker that has not been told to stop comes to the oldest event in the queue. -/
theorem exists_begins_next
    (goesOn : scene.told = false)
    {event : Event τ}
    {later : List (Event τ)}
    (waiting : scene.machine.session.queue.events = event :: later) :
    ∃ count worker, (scene.perform (List.replicate count (.operation .advance))).hand =
      some (.event event, Work.process definition worker event) := by
  obtain ⟨first, completes⟩ := scene.exists_perform_eq_complete
  obtain ⟨worker, isWorker⟩ := unfolds.exists_worker_complete forest fits goesOn
  obtain ⟨more, events_eq⟩ := scene.events_complete
  rw [waiting, List.cons_append] at events_eq
  obtain ⟨second, begins⟩ := exists_takes_up scene.hand_complete isWorker
    (scene.told_complete.trans goesOn) events_eq
  obtain ⟨_, completed⟩ := unfolds.complete forest fits
  refine ⟨first + second, worker, ?_⟩
  rw [List.replicate_add, perform_append, completes, begins, completed.definition_eq]

end Unfolds
end Scene

/-! ## Courses -/

/-- A worker that has opened has processed events from its first position on. -/
theorem Stage.exists_first
    {opening : Work κ τ ω (Worker κ)}
    {told : Bool}
    {remaining : Option (Worker κ)}
    {hand : Option (Task τ × Work κ τ ω (Worker κ))}
    {chronicle : Chronicle κ τ ω}
    (stage : Stage definition opening told remaining hand chronicle)
    (fallback : Worker κ) :
    ∃ first last, Handles definition first chronicle.accounts last ∧
      ((∀ work, hand ≠ some (.opening, work)) → opening.Performs chronicle.opened first) ∧
      (hand = none → ∀ worker, remaining = some worker → worker = last) := by
  cases stage with
  | opening leads =>
      exact ⟨fallback, fallback, .nothing, fun opened => (opened _ rfl).elim, nofun⟩
  | idle opens handles =>
      exact ⟨_, _, handles, fun _ => opens, fun _ _ same => (Option.some.inj same).symm⟩
  | event opens handles _ => exact ⟨_, _, handles, fun _ => opens, by simp⟩
  | closing opens handles _ => exact ⟨_, _, handles, fun _ => opens, by simp⟩
  | ended opens handles _ => exact ⟨_, _, handles, fun _ => opens, by simp⟩

namespace Course

/-- The worker of a course, who was in its first position after the opening, goes on whatever
fails. -/
structure Perseveres
    (course : Course definition)
    (chronicle : Chronicle κ τ ω)
    (first : Worker κ) : Prop where
  /-- The chronicle lists all deeds. -/
  deeds_eq : course.scene.machine.session.deeds = chronicle.deeds definition
  /-- Each event that was begun has been processed to its end, but for the one in hand. -/
  begun_eq : course.scene.machine.session.begun =
    chronicle.accounts.map Account.event ++ course.scene.underway
  /-- After a start those states are active whose entry was completed. -/
  started :
    course.beginning = .start → (∀ work, course.scene.hand ≠ some (.opening, work)) →
      ∃ failure, first.IsStarted definition chronicle.opened failure
  /-- Each event begins where the one before has ended, and the first one where the opening
  has. -/
  before_eq {earlier later : List (Account κ τ ω)} {account : Account κ τ ω} :
    chronicle.accounts = earlier ++ account :: later →
      account.before = earlier.getLast?.elim first (Account.after definition)
  /-- Guards decide what is selected for an event, and if nothing is selected no step is
  taken. -/
  isRight {account : Account κ τ ω} :
    account ∈ chronicle.accounts → account.IsRight definition
  /-- Each transition that is selected is carried out up to its first failure. -/
  carriedOut {account : Account κ τ ω} {entry : Entry κ τ ω} :
    account ∈ chronicle.accounts → account.chosen = some entry →
      account.IsCarriedOut definition entry
  /-- A worker that waits for its next task is as the last event has left it. -/
  idle {worker : Worker κ} :
    course.scene.hand = none → course.scene.machine.worker = some worker →
      worker = chronicle.accounts.getLast?.elim first (Account.after definition)
  /-- Whatever is in its hand, the worker finishes it if it goes on long enough. Its machine runs
  on, and unless the worker has been told to stop it waits for its next task. -/
  finishes : ∃ count,
    let later := course.scene.perform (List.replicate count (.operation .advance))
    later.hand = none ∧
      later.machine.session.phase = course.scene.machine.session.phase ∧
      (course.scene.told = false → later.machine.worker.isSome = true)
  /-- Unless it has been told to stop the worker comes to the oldest event in the queue if it
  goes on long enough. -/
  goes_on {event : Event τ} {later : List (Event τ)} :
    course.scene.told = false → course.scene.machine.session.queue.events = event :: later →
      ∃ count worker,
        (course.scene.perform (List.replicate count (.operation .advance))).hand =
          some (.event event, Work.process definition worker event)

/-- Callbacks are called in turn up to the first failure. Starting a machine succeeds and sets it
running even if an entry action fails, and whatever fails in the course of time, the worker goes
on. -/
theorem perseveres
    {draft : MachineDraft κ τ ω}
    (built : draft.build = .ok definition) :
    definition.CallsInTurn ∧
      (∀ clock world, ((Machine.new definition clock world).start true).1 = .ok () ∧
        ((Machine.new definition clock world).start true).2.session.phase = .running) ∧
      (∀ run : Run definition, ∃ course : Course definition,
        course.beginning = run.beginning ∧ course.scene = run.machine.scene) ∧
      ∀ course : Course definition, ∃ chronicle first, course.Perseveres chronicle first := by
  have wellFormed := Definition.isWellFormed_of_build built
  have fits := Definition.fits_of_build built
  refine ⟨definition.callsInTurn, fun _ _ => Machine.start_of_created rfl,
    fun run => run.exists_course, fun course => ?_⟩
  obtain ⟨work, chronicle, begins, unfolds⟩ := course.exists_unfolds_of_begins built
  obtain ⟨first, last, handles, opens, remains⟩ := unfolds.stage.exists_first
    (Machine.new definition course.clock course.world).freshWorker
  refine ⟨chronicle, first, ?_⟩
  exact {
    deeds_eq := unfolds.deeds_eq
    begun_eq := unfolds.begun_eq
    started := by
      intro beginning_eq opened
      rw [beginning_eq] at begins
      cases begins with
      | start clock world => exact Work.exists_isStarted wellFormed.forest rfl (opens opened)
    before_eq := fun split => (handles.of_split split).1.eq_after
    isRight := by
      intro account member
      obtain ⟨_, _, split⟩ := List.append_of_mem member
      exact (handles.of_split split).2.1
    carriedOut := by
      intro account entry member chosen
      obtain ⟨earlier, later, split⟩ := List.append_of_mem member
      obtain ⟨_, opened_by, before, isRight, _⟩ := unfolds.stage.of_split split
      obtain ⟨_, consistent⟩ := begins.evolves_handles wellFormed opened_by before
      exact isRight.isCarriedOut wellFormed (handles.executes member) consistent chosen
    idle := fun idles isWorker => (remains idles _ isWorker).trans handles.eq_after
    finishes := unfolds.exists_finishes wellFormed.forest fits
    goes_on := fun goesOn waiting =>
      unfolds.exists_begins_next wellFormed.forest fits goesOn waiting }

end Course
end Courses

/-! ## An example -/

namespace Course

open Run (crossing crossingDraft midnight)

/-- A machine with an observer. The entry action of one state breaks off, and the action of the
only transition expects another payload than none. -/
def stumblingDraft : MachineDraft String String Unit :=
  let breakOff : StateAction String String Unit :=
    ⟨fun world => .done (.panicked .unknown, world)⟩
  let fussy : Action String String Unit :=
    .typed .bool fun _ world => .done (.returned (.ok ()), world)
  { crossingDraft [] with
    blueprint := (crossingDraft []).blueprint.onEntry "red" breakOff
    transitions := [{ Transition.external "on" "cross" "loud" with actions := [fussy] }]
    observers := [silentObserver] }

/-- What the draft describes. -/
def stumbling : Definition String String Unit :=
  { crossing [] with
    hooks := stumblingDraft.blueprint.hooks
    table := ⟨stumblingDraft.transitions.filterMap fun transition =>
      (Table.entryOf (crossing []).graph transition).toOption⟩
    observers := stumblingDraft.observers }

/-- A course in which the start fails, and then the action of the second event. -/
def stumble : Course stumbling where
  clock := midnight
  world := ()
  beginning := .start
  first :=
    let machine := Machine.new stumbling midnight ()
    Scene.launched machine 0 (Work.enterInitial stumbling machine.freshWorker)
  accepted := rfl
  moves :=
    .operation (.fire ((Event.new .nil "cross").withPayload ⟨.bool, true⟩)) ::
      .operation (.fire (.new .nil "cross")) :: .operation (.fire (.new .nil "wait")) ::
        List.replicate 80 (.operation .advance)

/-- The start ends with the second entry. The exit before the action that fails stays done, and
the last event is reached. -/
theorem perseveres_stumble :
    stumblingDraft.build = .ok stumbling ∧
      attemptedSteps stumble.activities =
        [.enter 0, .enter 1, .act 0, .enter 4, .exit 4, .act 0] ∧
      completedSteps stumble.activities = [.enter 0, .act 0, .enter 4, .exit 4] ∧
      (received 0 stumble.activities).map Notification.kind =
        ["lifecycle exception", "begin", "completed", "begin", "exception", "begin",
          "declined"] ∧
      ∃ chronicle first, stumble.Perseveres chronicle first := by
  have built : stumblingDraft.build = .ok stumbling := by cbv
  exact ⟨built, by cbv, by cbv, by cbv, (perseveres built).2.2.2 stumble⟩

end Course
end Statechart
