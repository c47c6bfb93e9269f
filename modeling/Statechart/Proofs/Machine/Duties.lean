import Statechart.Proofs.Machine.Calls

/-!
# The callbacks of transitions and of the start

A transition calls the exit actions of the states that it leaves, then its own actions, and
then the entry actions of the states that it enters. The start calls the entry actions of the
first configuration. Both end with the first callback that fails, because it reports an error,
because it breaks off, or because it does not expect the payload that it is given.
-/

namespace Statechart

variable {κ τ ω : Type}

section Definitions

variable [DecidableEq κ] [StateKey κ] (definition : Definition κ τ ω)

namespace Definition

/-- What there is to do at a step of a transition. Nothing is told of a failure before the end
of the event. -/
def dutyOf?
    [Inspect τ]
    (entry : Entry κ τ ω)
    (event : Event τ) : Step → Option (Duty κ τ ω)
  | .exit state =>
      (definition.exitAction? state).map fun action =>
        ⟨action.invoke, .exitFailed (definition.graph.nameOf state), fun _ => []⟩
  | .act position =>
      entry.transition.actions[position]?.map fun action =>
        ⟨action.invoke event.payload,
          .actionFailed (definition.graph.nameOf entry.source) (inspect event.trigger),
          fun _ => []⟩
  | .enter state =>
      (definition.entryAction? state).map fun action =>
        ⟨action.invoke, .entryFailed (definition.graph.nameOf state), fun _ => []⟩

/-- What there is to do at a step of the start. A failure is reported at once. -/
def entryDutyOf? : Step → Option (Duty κ τ ω)
  | .enter state =>
      (definition.entryAction? state).map fun action =>
        ⟨action.invoke, .entryFailed (definition.graph.nameOf state),
          fun cause => [.startFailed (definition.graph.nameOf state) cause]⟩
  | _ => none

/-- The exit actions of some states, in order. -/
def exitCallbacks (states : List Nat) : List (Callback κ τ ω (Except Failure Unit)) :=
  states.filterMap fun state => (definition.exitAction? state).map StateAction.invoke

/-- The entry actions of some states, in order. -/
def entryCallbacks (states : List Nat) : List (Callback κ τ ω (Except Failure Unit)) :=
  states.filterMap fun state => (definition.entryAction? state).map StateAction.invoke

/-- The callbacks of a transition with its plan: the exit actions of what it leaves, then its
own actions, and then the entry actions of what it enters. A transition without a plan only has
its own actions. -/
def callbacksOf
    (entry : Entry κ τ ω)
    (event : Event τ) : Option Plan → List (Callback κ τ ω (Except Failure Unit))
  | none => entry.transition.actions.map fun action => action.invoke event.payload
  | some plan =>
      definition.exitCallbacks plan.exits ++
        (entry.transition.actions.map fun action => action.invoke event.payload) ++
          definition.entryCallbacks plan.entries

/-- The exit action of a state fails with a cause. -/
def ExitFails (state : Nat) (cause : Failure) : Prop :=
  ∃ action, definition.exitAction? state = some action ∧ Work.Fails action.effect cause

/-- The entry action of a state fails with a cause. -/
def EntryFails (state : Nat) (cause : Failure) : Prop :=
  ∃ action, definition.entryAction? state = some action ∧ Work.Fails action.effect cause

/-- A step of a transition fails with a cause. -/
def StepFails (entry : Entry κ τ ω) (event : Event τ) : Step → Failure → Prop
  | .exit state, cause => definition.ExitFails state cause
  | .act position, cause =>
      ∃ action, entry.transition.actions[position]? = some action ∧
        action.FailsOn event.payload cause
  | .enter state, cause => definition.EntryFails state cause

variable [Inspect τ]

/-- The callbacks of the steps of a transition are those of the transition. -/
theorem filterMap_callback_stepsOf
    (entry : Entry κ τ ω)
    (event : Event τ)
    (plan : Option Plan) :
    (stepsOf entry plan).filterMap
        (fun step => (definition.dutyOf? entry event step).map Duty.callback) =
      definition.callbacksOf entry event plan := by
  have actions_eq : (actionSteps entry).filterMap
      (fun step => (definition.dutyOf? entry event step).map Duty.callback) =
        entry.transition.actions.map fun action => action.invoke event.payload := by
    rw [actionSteps, List.filterMap_map]
    simp only [Function.comp_def, dutyOf?, Option.map_map]
    induction entry.transition.actions with
    | nil => rfl
    | cons action actions inductionHypothesis =>
        rw [List.length_cons, List.range_succ_eq_map, List.map_cons, ← inductionHypothesis]
        simp [List.filterMap_map]
  cases plan with
  | none => exact actions_eq
  | some plan =>
      rw [stepsOf, List.filterMap_append, List.filterMap_append, actions_eq]
      simp only [List.filterMap_map, Function.comp_def, dutyOf?, Option.map_map, callbacksOf,
        exitCallbacks, entryCallbacks]

/-- Where there is a session, the callback of a step ends in an error exactly if the step
fails. -/
theorem performs_iff_stepFails
    (session : Session κ τ ω)
    {entry : Entry κ τ ω}
    {event : Event τ}
    {step : Step}
    {duty : Duty κ τ ω}
    (due : definition.dutyOf? entry event step = some duty)
    {cause : Failure} :
    (Work.call duty.callback).Performs ([] : List (Activity κ τ)) (.error cause) ↔
      definition.StepFails entry event step cause := by
  cases step with
  | exit state => exact Duty.performs_iff_exists_fails (fun _ => rfl) due
  | act position =>
      obtain ⟨action, action_eq, rfl⟩ := Option.map_eq_some_iff.mp due
      refine (Action.performs_invoke_iff session).trans
        ⟨fun failed => ⟨action, action_eq, failed⟩, ?_⟩
      rintro ⟨other, other_eq, failed⟩
      obtain rfl := Option.some.inj (action_eq.symm.trans other_eq)
      exact failed
  | enter state => exact Duty.performs_iff_exists_fails (fun _ => rfl) due

omit [Inspect τ] in
/-- A callback of the start ends in an error exactly if the entry action fails. -/
theorem performs_iff_entryFails
    {state : Nat}
    {duty : Duty κ τ ω}
    (due : definition.entryDutyOf? (.enter state) = some duty)
    {cause : Failure} :
    (Work.call duty.callback).Performs ([] : List (Activity κ τ)) (.error cause) ↔
      definition.EntryFails state cause :=
  Duty.performs_iff_exists_fails (fun _ => rfl) due

end Definition

namespace Work

variable [Inspect τ]

/-- An attempt at a step of a transition does what there is to do. -/
theorem recorded_attempt
    (entry : Entry κ τ ω)
    (event : Event τ)
    (step : Step) :
    (attempt definition entry.source entry.transition.actions event step).recorded =
      serve (definition.dutyOf? entry event step) := by
  cases step with
  | exit state =>
      rw [attempt, Definition.dutyOf?]
      cases definition.exitAction? state with
      | none => rfl
      | some action => exact recorded_call_mapError _ _
  | act position =>
      rw [attempt, Definition.dutyOf?]
      cases entry.transition.actions[position]? with
      | none => rfl
      | some action => exact recorded_call_mapError _ _
  | enter state =>
      rw [attempt, Definition.dutyOf?]
      cases definition.entryAction? state with
      | none => rfl
      | some action => exact recorded_call_mapError _ _

omit [Inspect τ] in
/-- An attempt at a step of the start does what there is to do. -/
theorem recorded_attemptEntry (step : Step) :
    (attemptEntry definition step : Work κ τ ω _).recorded =
      serve (definition.entryDutyOf? step) := by
  cases step with
  | exit state => rfl
  | act position => rfl
  | enter state =>
      rw [attemptEntry, Definition.entryDutyOf?]
      cases definition.entryAction? state with
      | none => rfl
      | some action =>
          rw [runStateAction, recorded_bind, recorded_call, bind_assoc]
          refine congrArg _ (funext fun result => ?_)
          cases result with
          | ok _ => rfl
          | error cause => rfl

/-- Carrying out a transition is calling its callbacks in turn. -/
theorem recorded_execute
    (entry : Entry κ τ ω)
    (event : Event τ)
    (configuration : Configuration) :
    (execute definition entry event configuration).recorded =
      (callInTurn (turnsFrom (definition.dutyOf? entry event) []
          (Definition.stepsOf entry (definition.planOf? configuration entry)))).bind
        fun outcome =>
          (Work.done (concluded
            (Definition.stepsOf entry (definition.planOf? configuration entry)) configuration
              outcome)).behind (planning definition (definition.planOf? configuration entry)) := by
  have takes := recorded_takeSteps (recorded_attempt definition entry event) configuration
    (Definition.stepsOf entry (definition.planOf? configuration entry))
  unfold execute
  cases planned : definition.planOf? configuration entry with
  | none =>
      rw [planned] at takes
      simp only [planning, Option.map_none, Option.toList_none, behind_nil]
      exact takes
  | some plan =>
      rw [planned] at takes
      simp only [recorded, Activity.deed?]
      rw [takes, behind_bind]
      rfl

end Work

/-- Whatever is done about a failure, transitions and the start call their callbacks in turn up
to the first one that fails. -/
structure Definition.CallsInTurn [Inspect τ] : Prop where
  /-- A transition asks for nothing but the calls. The outcome of the calls decides what is
  noted, which failure is captured and which configuration is reached. -/
  transition (entry : Entry κ τ ω) (event : Event τ) (configuration : Configuration) :
    (Work.execute definition entry event configuration).recorded =
      (Work.callInTurn (turnsFrom (definition.dutyOf? entry event) []
          (stepsOf entry (definition.planOf? configuration entry)))).bind
        fun outcome =>
          (Work.done (Work.concluded (stepsOf entry (definition.planOf? configuration entry))
            configuration outcome)).behind
              (Work.planning definition (definition.planOf? configuration entry))
  /-- The exit actions of a plan are called first, then the actions of the transition, and then
  the entry actions of the plan. -/
  callbacks_eq (entry : Entry κ τ ω) (event : Event τ) (plan : Option Plan) :
    (turnsFrom (definition.dutyOf? entry event) [] (stepsOf entry plan)).map
        (fun turn => turn.duty.callback) =
      definition.callbacksOf entry event plan
  /-- The start asks for nothing but the calls until a failure is told. -/
  start (configuration : Configuration) :
    (Work.takeSteps (Work.attemptEntry definition)
        ((Plan.initial definition.graph).map .enter) configuration : Work κ τ ω _).recorded =
      (Work.callInTurn (turnsFrom definition.entryDutyOf? []
          ((Plan.initial definition.graph).map .enter))).bind
        fun outcome =>
          .done (Work.concluded ((Plan.initial definition.graph).map .enter) configuration
            outcome)
  /-- The entry actions of all trees are called, in the order in which they are entered. -/
  entries_eq :
    (turnsFrom definition.entryDutyOf? [] ((Plan.initial definition.graph).map .enter)).map
        (fun turn => turn.duty.callback) =
      definition.entryCallbacks (Plan.initial definition.graph)
  /-- A callback of a transition ends in an error exactly if it reports one, breaks off, or is
  given a payload that it does not expect. -/
  stepFails_iff (session : Session κ τ ω) {entry : Entry κ τ ω} {event : Event τ} {step : Step}
      {duty : Duty κ τ ω} {cause : Failure} :
    definition.dutyOf? entry event step = some duty →
      ((Work.call duty.callback).Performs ([] : List (Activity κ τ)) (.error cause) ↔
        definition.StepFails entry event step cause)
  /-- A callback of the start ends in an error exactly if it reports one or breaks off. -/
  entryFails_iff {state : Nat} {duty : Duty κ τ ω} {cause : Failure} :
    definition.entryDutyOf? (.enter state) = some duty →
      ((Work.call duty.callback).Performs ([] : List (Activity κ τ)) (.error cause) ↔
        definition.EntryFails state cause)

theorem Definition.callsInTurn [Inspect τ] : definition.CallsInTurn where
  transition := Work.recorded_execute definition
  callbacks_eq entry event plan :=
    (map_callback_turnsFrom _ _ _).trans (definition.filterMap_callback_stepsOf entry event plan)
  start configuration :=
    Work.recorded_takeSteps (Work.recorded_attemptEntry definition) configuration _
  entries_eq := by
    rw [map_callback_turnsFrom, List.filterMap_map, entryCallbacks]
    simp only [Function.comp_def, entryDutyOf?, Option.map_map]
  stepFails_iff session _ _ _ _ _ due := definition.performs_iff_stepFails session due
  entryFails_iff due := definition.performs_iff_entryFails due

end Definitions
end Statechart
