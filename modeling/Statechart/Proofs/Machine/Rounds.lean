import Statechart.Proofs.Machine.Life
import Statechart.Proofs.Machine.Parts

/-!
# Rounds of notifications

A worker gives a notification to all observers, to each of them once and in the order in which
they have been registered, before it gives the next one. Nothing that happens in between changes
that: neither what callers do nor an observer that breaks off.
-/

namespace Statechart

variable {κ τ ω α β : Type}

/-- Who is told by an activity, and what. -/
def Activity.telling? : Activity κ τ → Option (Nat × Notification κ τ)
  | .notified observer notification => some (observer, notification)
  | _ => none

/-- Who is told by some deeds, and what, in order. -/
def tellings (deeds : List (Activity κ τ)) : List (Nat × Notification κ τ) :=
  deeds.filterMap Activity.telling?

theorem tellings_append (earlier later : List (Activity κ τ)) :
    tellings (earlier ++ later) = tellings earlier ++ tellings later :=
  List.filterMap_append

/-- Each of the notifications is given to a number of observers, to each once and in order. -/
def rounds
    (observers : Nat)
    (notifications : List (Notification κ τ)) : List (Nat × Notification κ τ) :=
  notifications.flatMap fun notification =>
    (List.range observers).map fun observer => (observer, notification)

theorem rounds_append (observers : Nat) (earlier later : List (Notification κ τ)) :
    rounds observers (earlier ++ later) = rounds observers earlier ++ rounds observers later :=
  List.flatMap_append

/-- Telling all observers of something is one round. -/
theorem tellings_told (observers : List (Observer κ τ ω)) (notification : Notification κ τ) :
    tellings (told observers notification) = rounds observers.length [notification] := by
  simp [tellings, told, rounds, List.filterMap_map, Function.comp_def, Activity.telling?]

/-- The observers are told in whole rounds by some deeds. -/
def InRounds (observers : Nat) (deeds : List (Activity κ τ)) : Prop :=
  ∃ notifications, tellings deeds = rounds observers notifications

namespace InRounds

variable {observers : Nat} {earlier later : List (Activity κ τ)}

theorem of_silence {deeds : List (Activity κ τ)} (silence : tellings deeds = []) :
    InRounds observers deeds :=
  ⟨[], silence⟩

theorem append
    (before : InRounds observers earlier)
    (after : InRounds observers later) :
    InRounds observers (earlier ++ later) := by
  obtain ⟨first, first_eq⟩ := before
  obtain ⟨second, second_eq⟩ := after
  exact ⟨first ++ second, by rw [tellings_append, first_eq, second_eq, rounds_append]⟩

end InRounds

/-! ## Work -/

namespace Work

/-- Whatever its requests are answered, work that is carried out tells the observers in whole
rounds. -/
def TellsInRounds (observers : Nat) (work : Work κ τ ω α) : Prop :=
  ∀ deeds result, work.Performs deeds result → InRounds observers deeds

section Parts

variable {observers : Nat} {work : Work κ τ ω α} {continuation : α → Work κ τ ω β}

theorem tellsInRounds_done (result : α) :
    (done result : Work κ τ ω α).TellsInRounds observers := by
  intro deeds _ performs
  obtain ⟨rfl, _⟩ := performs_done_iff.mp performs
  exact .of_silence rfl

theorem TellsInRounds.bind
    (first : work.TellsInRounds observers)
    (second : ∀ result, (continuation result).TellsInRounds observers) :
    (work.bind continuation).TellsInRounds observers := by
  intro _ result performs
  obtain ⟨between, earlier, later, rfl, before, after⟩ := performs_bind_iff.mp performs
  exact (first earlier between before).append (second between later result after)

/-- What is noted besides tells nobody anything. -/
theorem TellsInRounds.note
    {activity : Activity κ τ}
    {isRemark : activity.IsRemark}
    (silence : tellings activity.deed?.toList = [])
    (rest : work.TellsInRounds observers) :
    (Work.note activity isRemark work).TellsInRounds observers := by
  intro _ result performs
  obtain ⟨later, rfl, after⟩ := performs_note_iff.mp performs
  exact (InRounds.of_silence silence).append (rest later result after)

theorem TellsInRounds.publish
    {snapshot : Snapshot κ}
    (rest : work.TellsInRounds observers) :
    (Work.publish snapshot work).TellsInRounds observers := by
  intro _ result performs
  obtain ⟨later, rfl, after⟩ := performs_publish_iff.mp performs
  exact rest later result after

theorem TellsInRounds.read
    {next : Session κ τ ω → Work κ τ ω α}
    (rest : ∀ session, (next session).TellsInRounds observers) :
    (Work.read next).TellsInRounds observers := by
  intro deeds result performs
  obtain ⟨session, after⟩ := performs_read_iff.mp performs
  exact rest session deeds result after

/-- Callbacks tell nobody anything. -/
theorem tellsInRounds_call (callback : Callback κ τ ω α) :
    (call callback).TellsInRounds observers := by
  intro deeds result performs
  obtain rfl := eq_nil_of_performs_call performs
  exact .of_silence rfl

theorem tellsInRounds_consult (entry : Entry κ τ ω) (event : Event τ) :
    (consult entry event).TellsInRounds observers := by
  unfold consult
  split
  · exact tellsInRounds_done _
  · exact (tellsInRounds_call _).bind fun _ => .note rfl (tellsInRounds_done _)

theorem tellsInRounds_runStateAction (action : Option (StateAction κ τ ω)) :
    (runStateAction action).TellsInRounds observers := by
  cases action with
  | none => exact tellsInRounds_done _
  | some action => exact tellsInRounds_call _

theorem tellsInRounds_takeSteps
    {attempt : Step → Work κ τ ω (Except StepError Unit)}
    (attempts : ∀ step, (attempt step).TellsInRounds observers)
    (steps : List Step)
    (configuration : Configuration) :
    (takeSteps attempt steps configuration).TellsInRounds observers := by
  induction steps generalizing configuration with
  | nil => exact tellsInRounds_done _
  | cons step steps inductionHypothesis =>
      refine (attempts step).bind fun result => ?_
      cases result with
      | ok _ => exact .note rfl (inductionHypothesis _)
      | error error => exact .note rfl (tellsInRounds_done _)

end Parts

/-! ## The tasks -/

section Tasks

variable (definition : Definition κ τ ω)

/-- A notification is one round. -/
theorem tellsInRounds_notify (notification : Notification κ τ) :
    (notify definition.observers notification).TellsInRounds definition.observers.length := by
  intro deeds _ performs
  rw [eq_of_performs_notify performs]
  exact ⟨[notification], tellings_told _ _⟩

theorem tellsInRounds_notifyAll (notifications : List (Notification κ τ)) :
    (notifyAll definition.observers notifications).TellsInRounds
      definition.observers.length := by
  induction notifications with
  | nil => exact tellsInRounds_done _
  | cons notification notifications inductionHypothesis =>
      exact (tellsInRounds_notify definition notification).bind fun _ => inductionHypothesis

theorem tellsInRounds_report
    (context : Context κ τ)
    (closing : Option (Notification κ τ))
    (worker : Worker κ) :
    (report definition context closing worker).TellsInRounds definition.observers.length := by
  refine (tellsInRounds_notifyAll definition _).bind fun _ => ?_
  cases closing with
  | none => exact tellsInRounds_done _
  | some notification =>
      exact (tellsInRounds_notify definition _).bind fun _ => tellsInRounds_done _

theorem tellsInRounds_finishEvent (worker : Worker κ) :
    (finishEvent definition worker).TellsInRounds definition.observers.length :=
  .read fun _ => .publish (tellsInRounds_done _)

theorem tellsInRounds_conclude
    [Inspect τ]
    (worker : Worker κ)
    (context : Context κ τ)
    (outcome : Option StepError × Configuration) :
    (conclude definition worker context outcome).TellsInRounds definition.observers.length := by
  obtain ⟨failure, configuration⟩ := outcome
  cases failure with
  | some error =>
      exact (tellsInRounds_finishEvent definition _).bind (tellsInRounds_report definition _ _)
  | none =>
      exact .read fun _ =>
        (tellsInRounds_finishEvent definition _).bind (tellsInRounds_report definition _ _)

theorem tellsInRounds_thenPublish
    {work : Work κ τ ω (Worker κ)}
    (tells : work.TellsInRounds definition.observers.length) :
    (thenPublish definition work).TellsInRounds definition.observers.length :=
  tells.bind fun _ => .publish (tellsInRounds_done _)

variable [StateKey κ]

theorem tellsInRounds_choose
    [Inspect τ]
    (event : Event τ)
    (entries : List (Entry κ τ ω)) :
    (choose definition event entries).TellsInRounds definition.observers.length := by
  induction entries with
  | nil => exact tellsInRounds_done _
  | cons entry entries inductionHypothesis =>
      refine (tellsInRounds_consult entry event).bind fun verdict => ?_
      cases verdict with
      | ok allowed =>
          cases allowed with
          | true => exact .note rfl (tellsInRounds_done _)
          | false => exact inductionHypothesis
      | error fault => exact inductionHypothesis.bind fun _ => tellsInRounds_done _

variable [DecidableEq κ]

theorem tellsInRounds_execute
    [Inspect τ]
    (entry : Entry κ τ ω)
    (event : Event τ)
    (configuration : Configuration) :
    (execute definition entry event configuration).TellsInRounds
      definition.observers.length := by
  have attempts (step : Step) :
      (attempt definition entry.source entry.transition.actions event step).TellsInRounds
        definition.observers.length := by
    cases step with
    | exit state => exact (tellsInRounds_runStateAction _).bind fun _ => tellsInRounds_done _
    | act position =>
        rw [attempt]
        split
        · exact tellsInRounds_done _
        · exact (tellsInRounds_call _).bind fun _ => tellsInRounds_done _
    | enter state => exact (tellsInRounds_runStateAction _).bind fun _ => tellsInRounds_done _
  have takes (plan : Option Plan) := tellsInRounds_takeSteps attempts
    (Definition.stepsOf entry plan) configuration
  unfold execute
  cases planned : definition.planOf? configuration entry with
  | none => exact takes none
  | some plan => exact .note rfl (takes (some plan))

/-- Entering the first configuration tells the observers in rounds. -/
theorem tellsInRounds_enterInitial (worker : Worker κ) :
    (enterInitial definition worker).TellsInRounds definition.observers.length := by
  have attempts (step : Step) :
      (attemptEntry definition step).TellsInRounds definition.observers.length := by
    cases step with
    | exit state => exact tellsInRounds_done _
    | act position => exact tellsInRounds_done _
    | enter state =>
        refine (tellsInRounds_runStateAction _).bind fun result => ?_
        cases result with
        | ok _ => exact tellsInRounds_done _
        | error failure => exact .note rfl (tellsInRounds_done _)
  refine (tellsInRounds_takeSteps attempts _ _).bind fun outcome => ?_
  obtain ⟨failure, configuration⟩ := outcome
  cases failure with
  | none => exact .note rfl (tellsInRounds_done _)
  | some error => exact (tellsInRounds_notify definition _).bind fun _ => tellsInRounds_done _

theorem tellsInRounds_leaveAll (states : List Nat) (worker : Worker κ) :
    (leaveAll definition states worker).TellsInRounds definition.observers.length := by
  induction states generalizing worker with
  | nil => exact tellsInRounds_done _
  | cons state states inductionHypothesis =>
      refine (tellsInRounds_runStateAction _).bind fun result => ?_
      cases result with
      | ok _ => exact .note rfl (inductionHypothesis _)
      | error failure =>
          exact .note rfl ((tellsInRounds_notify definition _).bind fun _ =>
            .note rfl (inductionHypothesis _))

/-- Leaving everything tells the observers in rounds. -/
theorem tellsInRounds_shutdown (worker : Worker κ) :
    (shutdown definition worker).TellsInRounds definition.observers.length :=
  (tellsInRounds_thenPublish definition (tellsInRounds_leaveAll definition _ _)).bind
    fun _ => .note rfl (tellsInRounds_done _)

/-- Processing an event tells the observers in rounds. -/
theorem tellsInRounds_process
    [DecidableEq τ]
    [Inspect τ]
    (worker : Worker κ)
    (event : Event τ) :
    (process definition worker event).TellsInRounds definition.observers.length := by
  rw [process_eq]
  refine (tellsInRounds_notify definition _).bind fun _ =>
    (tellsInRounds_choose definition _ _).bind fun selected => ?_
  obtain ⟨chosen, faults⟩ := selected
  cases chosen with
  | none =>
      exact (tellsInRounds_finishEvent definition _).bind (tellsInRounds_report definition _ _)
  | some entry =>
      exact (tellsInRounds_execute definition _ _ _).bind (tellsInRounds_conclude definition _ _)

end Tasks
end Work

/-! ## Lives -/

namespace Scene

variable [DecidableEq κ] [StateKey κ] [DecidableEq τ] [Inspect τ]

/-- The deeds with which the task in hand can be carried out to its end. -/
def Lacks (scene : Scene κ τ ω) (deeds : List (Activity κ τ)) : Prop :=
  match scene.hand with
  | none => deeds = []
  | some (_, work) => ∃ worker, work.Performs deeds worker

/-- A machine that has begun has told its observers in whole rounds when the task in hand is
done. -/
structure TellsInRounds (definition : Definition κ τ ω) (scene : Scene κ τ ω) : Prop where
  definition_eq : scene.machine.definition = definition
  begun : scene.machine.session.phase ≠ .created
  rounds {deeds : List (Activity κ τ)} : scene.Lacks deeds →
    InRounds definition.observers.length (scene.machine.session.deeds ++ deeds)

variable {definition : Definition κ τ ω} {scene : Scene κ τ ω}

omit [DecidableEq κ] [StateKey κ] [DecidableEq τ] [Inspect τ] in
/-- A task can be carried out to its end at any time. -/
theorem exists_lacks (scene : Scene κ τ ω) : ∃ deeds, scene.Lacks deeds := by
  obtain ⟨machine, hand, told⟩ := scene
  cases hand with
  | none => exact ⟨[], rfl⟩
  | some hand =>
      obtain ⟨deeds, performs, _⟩ := hand.2.performs_run machine.session
      exact ⟨deeds, _, performs⟩

omit [DecidableEq κ] [StateKey κ] [DecidableEq τ] [Inspect τ] in
/-- While nothing is in hand the observers have been told in whole rounds. -/
theorem TellsInRounds.of_idle
    (tells : scene.TellsInRounds definition)
    (idle : scene.hand = none) :
    InRounds definition.observers.length scene.machine.session.deeds := by
  have nothing : scene.Lacks [] := by rw [Lacks, idle]
  have whole := tells.rounds nothing
  rwa [List.append_nil] at whole

theorem TellsInRounds.takeUp
    (tells : scene.TellsInRounds definition)
    (idle : scene.hand = none) :
    scene.takeUp.TellsInRounds definition := by
  have whole := tells.of_idle idle
  obtain rfl := tells.definition_eq
  unfold Scene.takeUp
  extract_lets machine
  split
  · exact tells
  · rename_i worker isWorker
    split
    · obtain ⟨phase_eq, _, _, _, _, deeds_eq, _⟩ := machine.close_keeps
      refine ⟨rfl, phase_eq ▸ tells.begun, ?_⟩
      rintro deeds ⟨_, performs⟩
      rw [deeds_eq]
      exact whole.append (Work.tellsInRounds_shutdown _ _ _ _ performs)
    · split
      · refine ⟨rfl, tells.begun, ?_⟩
        rintro deeds ⟨_, performs⟩
        rw [Session.deeds_note]
        exact (whole.append (.of_silence rfl)).append
          (Work.tellsInRounds_process _ _ _ _ _ performs)
      · exact ⟨rfl, tells.begun, tells.rounds⟩
      · exact tells

theorem TellsInRounds.advance (tells : scene.TellsInRounds definition) :
    scene.advance.TellsInRounds definition := by
  unfold Scene.advance
  split
  · rename_i idle
    exact tells.takeUp idle
  · rename_i task worker isDone
    refine ⟨tells.definition_eq, tells.begun, ?_⟩
    rintro _ rfl
    have nothing : scene.Lacks [] := by
      rw [Lacks, isDone]
      exact ⟨worker, .refl _⟩
    exact tells.rounds nothing
  · rename_i task work _ inHand
    obtain ⟨deeds, leads, proceeds⟩ := work.leads_step scene.machine.session
    refine ⟨tells.definition_eq, proceeds.not_created tells.begun, ?_⟩
    rintro later ⟨worker, performs⟩
    have lacks : scene.Lacks (deeds ++ later) := by
      rw [Lacks, inHand]
      exact ⟨worker, leads.trans performs⟩
    rw [proceeds.deeds_eq, List.append_assoc]
    exact tells.rounds lacks

theorem TellsInRounds.apply
    (tells : scene.TellsInRounds definition)
    (move : Move κ τ ω) :
    (scene.apply move).TellsInRounds definition := by
  cases move with
  | tell => exact ⟨tells.definition_eq, tells.begun, tells.rounds⟩
  | operation operation =>
      by_cases byWorker : operation = .advance
      · subst byWorker
        exact tells.advance
      · obtain ⟨proceeds, definition_eq, _⟩ := Machine.proceeds_apply tells.begun byWorker
        rw [apply_of_ne_advance scene byWorker]
        refine ⟨definition_eq.trans tells.definition_eq, proceeds.not_created tells.begun,
          fun lacks => ?_⟩
        rw [proceeds.deeds_eq, List.append_nil]
        exact tells.rounds lacks

theorem TellsInRounds.perform
    (tells : scene.TellsInRounds definition)
    (moves : List (Move κ τ ω)) :
    (scene.perform moves).TellsInRounds definition := by
  induction moves generalizing scene with
  | nil => exact tells
  | cons move moves inductionHypothesis => exact inductionHypothesis (tells.apply move)

omit [DecidableEq κ] [StateKey κ] [DecidableEq τ] [Inspect τ] in
/-- Before the beginning nothing has been done. -/
theorem IsFresh.deeds_eq
    {clock : Timestamp}
    {world : ω}
    (fresh : scene.IsFresh definition clock world) :
    scene.machine.session.deeds = [] := by
  obtain ⟨_, _, remarks, rfl, names⟩ := fresh
  refine List.filterMap_eq_nil_iff.mpr fun activity member => ?_
  obtain ⟨_, _, rfl⟩ := names activity (List.mem_reverse.mp member)
  rfl

omit [DecidableEq τ] [Inspect τ] in
/-- A machine begins with a whole round, or with none. -/
theorem IsFresh.tellsInRounds_begin
    {clock : Timestamp}
    {world : ω}
    (fresh : scene.IsFresh definition clock world)
    {beginning : Beginning κ}
    {first : Scene κ τ ω}
    (accepted : begin scene.machine beginning = .ok first) :
    first.TellsInRounds definition := by
  obtain rfl : scene.machine.definition = definition := by
    obtain ⟨_, _, _, rfl, _⟩ := fresh
    rfl
  have nothing := fresh.deeds_eq
  cases beginning with
  | start =>
      cases accepted
      refine ⟨rfl, nofun, ?_⟩
      rintro deeds ⟨_, performs⟩
      have silence : InRounds scene.machine.definition.observers.length
          scene.machine.session.deeds := .of_silence (by rw [nothing]; rfl)
      exact silence.append (Work.tellsInRounds_thenPublish _
        (Work.tellsInRounds_enterInitial _ _) _ _ performs)
  | restore checkpoint =>
      have compared : (scene.machine.comparingName checkpoint).session.deeds = [] := by
        rcases scene.machine.comparingName_cases checkpoint with same | noted
        · rw [same, nothing]
        · rw [noted, Session.deeds_note, nothing]
          rfl
      rw [begin] at accepted
      split at accepted
      · contradiction
      · cases accepted
        refine ⟨scene.machine.definition_comparingName checkpoint, nofun, ?_⟩
        rintro deeds ⟨_, performs⟩
        have silence : InRounds scene.machine.definition.observers.length
            (scene.machine.comparingName checkpoint).session.deeds :=
          .of_silence (by rw [compared]; rfl)
        rw [← scene.machine.definition_comparingName checkpoint] at silence ⊢
        exact silence.append (Work.tellsInRounds_thenPublish _
          (.note rfl (Work.tellsInRounds_done _)) _ _ performs)

end Scene

namespace Life

variable
  [DecidableEq κ]
  [StateKey κ]
  [DecidableEq τ]
  [Inspect τ]
  {definition : Definition κ τ ω}

/-- The observers have been told in rounds, the last of which may not be over while the worker
has something in hand. -/
def TellsInRounds (life : Life definition) : Prop :=
  ∃ notifications,
    tellings life.scene.machine.session.deeds <+:
        rounds definition.observers.length notifications ∧
      (life.scene.hand = none →
        tellings life.scene.machine.session.deeds =
          rounds definition.observers.length notifications)

/-- At any time the observers have been told in rounds. -/
theorem tellsInRounds (life : Life definition) : life.TellsInRounds := by
  have fresh : life.created.IsFresh definition life.clock life.world :=
    ⟨life.clock, life.world, [], rfl, List.forall_mem_nil _⟩
  rcases fresh.exists_begin life.moves with unbegun | ⟨before, first, _, later, isFresh, begins, eq⟩
  · have nothing : tellings life.scene.machine.session.deeds = [] := by
      rw [scene, unbegun.deeds_eq]
      rfl
    exact ⟨[], nothing ▸ List.nil_prefix, fun _ => nothing⟩
  · have tells : life.scene.TellsInRounds definition := by
      rw [scene, eq]
      exact (isFresh.tellsInRounds_begin begins).perform later
    by_cases idle : life.scene.hand = none
    · obtain ⟨notifications, whole⟩ := tells.of_idle idle
      exact ⟨notifications, whole ▸ List.prefix_refl _, fun _ => whole⟩
    · obtain ⟨deeds, lacks⟩ := life.scene.exists_lacks
      obtain ⟨notifications, whole⟩ := tells.rounds lacks
      rw [tellings_append] at whole
      exact ⟨notifications, ⟨tellings deeds, whole⟩, fun isIdle => absurd isIdle idle⟩

end Life
end Statechart
