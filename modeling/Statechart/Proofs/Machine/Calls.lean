import Statechart.Proofs.Machine.Performance

/-!
# The callbacks of steps

Taking steps is calling their callbacks in turn up to the first one that fails. Beside the
calls nothing is asked of the session. Each step that has no callback, or whose callback
succeeds, is completed, and the first failure is all that comes of the step that it belongs
to.
-/

namespace Statechart

variable {κ τ ω α β : Type}

namespace Work

/-! ## Work and its deeds -/

/-- Hands over deeds from before together with those that the work hands over. -/
def behind
    (earlier : List (Activity κ τ))
    (work : Work κ τ ω (List (Activity κ τ) × α)) : Work κ τ ω (List (Activity κ τ) × α) :=
  work.bind fun (later, result) => .done (earlier ++ later, result)

@[simp] theorem behind_done
    (earlier later : List (Activity κ τ))
    (result : α) :
    (done (later, result) : Work κ τ ω _).behind earlier = done (earlier ++ later, result) := rfl

@[simp] theorem behind_nil (work : Work κ τ ω (List (Activity κ τ) × α)) :
    work.behind [] = work :=
  bind_done work

theorem behind_behind
    (first second : List (Activity κ τ))
    (work : Work κ τ ω (List (Activity κ τ) × α)) :
    (work.behind second).behind first = work.behind (first ++ second) := by
  simp only [behind, bind_assoc, bind, List.append_assoc]

theorem behind_bind
    (earlier : List (Activity κ τ))
    (work : Work κ τ ω β)
    (continuation : β → Work κ τ ω (List (Activity κ τ) × α)) :
    (work.bind continuation).behind earlier =
      work.bind fun result => (continuation result).behind earlier :=
  bind_assoc work continuation _

/-- Work that keeps its deeds to itself until the end and hands them over with its result. -/
def recorded : Work κ τ ω α → Work κ τ ω (List (Activity κ τ) × α)
  | .done result => .done ([], result)
  | .note activity isRemark next =>
      match activity.deed? with
      | none => .note activity isRemark next.recorded
      | some deed => next.recorded.behind [deed]
  | .publish snapshot next => next.recorded.behind [.published snapshot]
  | .fire event next => .fire event fun answer => (next answer).recorded
  | .read next => .read fun session => (next session).recorded
  | .retain world next => .retain world next.recorded

/-- Work with deeds from before is carried out like the work alone. -/
theorem performs_behind_iff
    {earlier deeds : List (Activity κ τ)}
    {work : Work κ τ ω (List (Activity κ τ) × α)}
    {result : α} :
    (work.behind earlier).Performs [] (deeds, result) ↔
      ∃ later, deeds = earlier ++ later ∧ work.Performs [] (later, result) := by
  simp only [behind, performs_bind_iff, performs_done_iff, Prod.mk.injEq]
  constructor
  · rintro ⟨⟨later, _⟩, _, _, split, first, rfl, rfl, rfl⟩
    obtain ⟨rfl, _⟩ := List.nil_eq_append_iff.mp split
    exact ⟨later, rfl, first⟩
  · rintro ⟨later, rfl, rest⟩
    exact ⟨(later, result), [], [], rfl, rest, rfl, rfl, rfl⟩

/-- The deeds that are handed over are those that the work is carried out by. -/
theorem performs_recorded_iff
    {work : Work κ τ ω α}
    {deeds : List (Activity κ τ)}
    {result : α} :
    work.recorded.Performs [] (deeds, result) ↔ work.Performs deeds result := by
  induction work generalizing deeds with
  | done other => simp [recorded]
  | note activity isRemark next inductionHypothesis =>
      rw [recorded, performs_note_iff]
      cases own : activity.deed? with
      | none => simp [own, inductionHypothesis]
      | some deed => simp [performs_behind_iff, inductionHypothesis]
  | publish snapshot next inductionHypothesis =>
      simp [recorded, performs_behind_iff, inductionHypothesis]
  | fire event next inductionHypothesis =>
      simp only [recorded, performs_fire_iff, inductionHypothesis]
  | read next inductionHypothesis =>
      simp only [recorded, performs_read_iff, inductionHypothesis]
  | retain world next inductionHypothesis =>
      simp only [recorded, performs_retain_iff, inductionHypothesis]

/-- Work that goes on with other work hands over the deeds of both. -/
theorem recorded_bind
    (work : Work κ τ ω α)
    (continuation : α → Work κ τ ω β) :
    (work.bind continuation).recorded =
      work.recorded.bind fun (earlier, result) =>
        (continuation result).recorded.behind earlier := by
  induction work with
  | done result => exact (behind_nil _).symm
  | note activity isRemark next inductionHypothesis =>
      rw [bind, recorded, recorded]
      cases activity.deed? with
      | none => exact congrArg (note activity isRemark) inductionHypothesis
      | some deed =>
          simp only [inductionHypothesis, behind_bind, behind_behind]
          simp only [behind, bind_assoc, bind]
  | publish snapshot next inductionHypothesis =>
      rw [bind, recorded, recorded, inductionHypothesis]
      simp only [behind_bind, behind_behind]
      simp only [behind, bind_assoc, bind]
  | fire event next inductionHypothesis => exact congrArg (fire event) (funext inductionHypothesis)
  | read next inductionHypothesis => exact congrArg read (funext inductionHypothesis)
  | retain world next inductionHypothesis => exact congrArg (retain world) inductionHypothesis

/-- The requests of a program are handed over without deeds. -/
theorem recorded_ofProgram (program : Program κ τ α) :
    (ofProgram program : Work κ τ ω α).recorded =
      (ofProgram program).bind fun result => .done ([], result) := by
  induction program with
  | done result => rfl
  | fire event next inductionHypothesis => exact congrArg (fire event) (funext inductionHypothesis)
  | look next inductionHypothesis =>
      exact congrArg read (funext fun session =>
        congrArg (note _ (.shown session.view)) (inductionHypothesis session.view))
  | log entry next inductionHypothesis => exact congrArg (note _ (.wrote entry)) inductionHypothesis

/-- A call is handed over without deeds. -/
theorem recorded_call (callback : Callback κ τ ω α) :
    (call callback).recorded = (call callback).bind fun result => .done ([], result) := by
  refine congrArg read (funext fun session => ?_)
  rw [recorded_bind, recorded_ofProgram, bind_assoc]
  simp only [bind_assoc]
  rfl

/-! ## Callbacks that fail -/

/-- The requests of two programs are made in order. -/
theorem ofProgram_bind (program : Program κ τ α) (continuation : α → Program κ τ β) :
    (ofProgram (program.bind continuation) : Work κ τ ω β) =
      (ofProgram program).bind fun result => ofProgram (continuation result) := by
  induction program with
  | done result => rfl
  | fire event next inductionHypothesis => exact congrArg (fire event) (funext inductionHypothesis)
  | look next inductionHypothesis =>
      exact congrArg read (funext fun session =>
        congrArg (note _ (.shown session.view)) (inductionHypothesis session.view))
  | log entry next inductionHypothesis => exact congrArg (note _ (.wrote entry)) inductionHypothesis

/-- What is made of the result of a callback is no matter of the session. -/
theorem call_map (callback : Callback κ τ ω α) (change : α → β) :
    call (fun world => (callback world).bind fun (result, world) =>
        .done (change result, world)) =
      (call callback).bind fun result => .done (change result) := by
  refine congrArg read (funext fun session => ?_)
  rw [ofProgram_bind, bind_assoc, bind_assoc]
  rfl

/-- An effect fails with a cause: it reports an error, or it breaks off. -/
def Fails
    (effect : Callback κ τ ω (Outcome (Except Failure Unit)))
    (cause : Failure) : Prop :=
  (call effect).Performs ([] : List (Activity κ τ)) (.returned (.error cause)) ∨
    ∃ panic, cause = .ofPanic panic ∧
      (call effect).Performs ([] : List (Activity κ τ)) (.panicked panic)

/-- A call in which a panic is turned into an error ends in an error exactly if the effect
fails. -/
theorem performs_contained_iff
    {effect : Callback κ τ ω (Outcome (Except Failure Unit))}
    {cause : Failure} :
    (call fun world => (effect world).bind fun (outcome, world) =>
        .done (Failure.contain outcome, world)).Performs ([] : List (Activity κ τ))
          (.error cause) ↔ Fails effect cause := by
  rw [call_map effect Failure.contain]
  simp only [performs_bind_iff, performs_done_iff, List.nil_eq_append_iff]
  constructor
  · rintro ⟨outcome, _, _, ⟨rfl, rfl⟩, called, _, failed⟩
    cases outcome with
    | returned result =>
        obtain rfl : .error cause = result := failed
        exact .inl called
    | panicked panic => exact .inr ⟨panic, Except.error.inj failed, called⟩
  · rintro (reported | ⟨panic, rfl, panicked⟩)
    · exact ⟨_, [], [], ⟨rfl, rfl⟩, reported, rfl, rfl⟩
    · exact ⟨_, [], [], ⟨rfl, rfl⟩, panicked, rfl, rfl⟩

end Work

/-- An action fails on a payload with a cause: its effect fails, or the payload is of another
type than the action expects. -/
def Action.FailsOn (payload : Payload) (cause : Failure) : Action κ τ ω → Prop
  | .ignoring effect => Work.Fails effect cause
  | .typed type effect =>
      match payload.get? type with
      | none => cause = .mismatch (mismatchOf type payload)
      | some value => Work.Fails (effect value) cause

/-- Where there is a session, running an action on a payload ends in an error exactly if the
action fails. -/
theorem Action.performs_invoke_iff
    (session : Session κ τ ω)
    {action : Action κ τ ω}
    {payload : Payload}
    {cause : Failure} :
    (Work.call (action.invoke payload)).Performs ([] : List (Activity κ τ)) (.error cause) ↔
      action.FailsOn payload cause := by
  cases action with
  | ignoring effect => exact Work.performs_contained_iff
  | typed type effect =>
      unfold invoke
      rw [FailsOn]
      cases held : payload.get? type with
      | none =>
          simp only [held, Work.call, Work.ofProgram, Work.bind, Work.performs_read_iff,
            Work.performs_retain_iff, Work.performs_done_iff]
          constructor
          · rintro ⟨_, _, failed⟩
            exact Except.error.inj failed
          · intro failed
            exact ⟨session, trivial, congrArg _ failed⟩
      | some value =>
          simp only [held]
          exact Work.performs_contained_iff

/-! ## Calling in turn -/

/-- What there is to do at a step, and what becomes of its failure. -/
structure Duty (κ τ ω : Type) where
  /-- What runs. -/
  callback : Callback κ τ ω (Except Failure Unit)
  /-- The error that names the step. -/
  error : Failure → StepError
  /-- The deeds of telling of the failure at once. -/
  report : Failure → List (Activity κ τ)

/-- What there is to do about a state action ends in an error exactly if its effect fails. -/
theorem Duty.performs_iff_exists_fails
    {action? : Option (StateAction κ τ ω)}
    {duty : Duty κ τ ω}
    {dutyOf : StateAction κ τ ω → Duty κ τ ω}
    (callback_eq : ∀ action, (dutyOf action).callback = action.invoke)
    (due : action?.map dutyOf = some duty)
    {cause : Failure} :
    (Work.call duty.callback).Performs ([] : List (Activity κ τ)) (.error cause) ↔
      ∃ action, action? = some action ∧ Work.Fails action.effect cause := by
  obtain ⟨action, rfl, rfl⟩ := Option.map_eq_some_iff.mp due
  rw [callback_eq]
  refine Work.performs_contained_iff.trans ⟨fun failed => ⟨action, rfl, failed⟩, ?_⟩
  rintro ⟨_, ⟨rfl⟩, failed⟩
  exact failed

/-- A step with something to do among some steps. -/
structure Turn (κ τ ω : Type) where
  /-- The steps before it. -/
  before : List Step
  step : Step
  duty : Duty κ τ ω

/-- The steps with something to do, behind the steps that are done already. -/
def turnsFrom (dutyOf? : Step → Option (Duty κ τ ω)) : List Step → List Step → List (Turn κ τ ω)
  | _, [] => []
  | done, step :: steps =>
      ((dutyOf? step).map (Turn.mk done step)).toList ++ turnsFrom dutyOf? (done ++ [step]) steps

/-- The callbacks of the turns are those of the steps, in order. -/
theorem map_callback_turnsFrom
    (dutyOf? : Step → Option (Duty κ τ ω))
    (done steps : List Step) :
    (turnsFrom dutyOf? done steps).map (fun turn => turn.duty.callback) =
      steps.filterMap fun step => (dutyOf? step).map Duty.callback := by
  induction steps generalizing done with
  | nil => rfl
  | cons step steps inductionHypothesis =>
      rw [turnsFrom, List.map_append, inductionHypothesis]
      cases due : dutyOf? step with
      | none => simp [due]
      | some duty => simp [due]

/-- What there is to do at some steps succeeds. -/
def Succeed (dutyOf? : Step → Option (Duty κ τ ω)) (steps : List Step) : Prop :=
  ∀ step ∈ steps, ∀ duty, dutyOf? step = some duty →
    (Work.call duty.callback).Performs ([] : List (Activity κ τ)) (.ok ())

namespace Work

/-- Calls callbacks in turn up to the first one that fails. -/
def callInTurn : List (Turn κ τ ω) → Work κ τ ω (Option (Turn κ τ ω × Failure))
  | [] => .done none
  | turn :: turns =>
      (call turn.duty.callback).bind fun result =>
        match result with
        | .ok _ => callInTurn turns
        | .error cause => .done (some (turn, cause))

/-- Either the callbacks of all steps succeed, or one fails after those of the steps before have
succeeded. -/
theorem performs_callInTurn
    {dutyOf? : Step → Option (Duty κ τ ω)}
    {done steps : List Step}
    {outcome : Option (Turn κ τ ω × Failure)}
    {deeds : List (Activity κ τ)}
    (performs : (callInTurn (turnsFrom dutyOf? done steps)).Performs deeds outcome) :
    (outcome = none ∧ Succeed dutyOf? steps) ∨
      ∃ first step rest duty cause,
        outcome = some (⟨done ++ first, step, duty⟩, cause) ∧ steps = first ++ step :: rest ∧
          Succeed dutyOf? first ∧ dutyOf? step = some duty ∧
          (call duty.callback).Performs ([] : List (Activity κ τ)) (.error cause) := by
  induction steps generalizing done deeds with
  | nil =>
      obtain ⟨_, rfl⟩ := performs_done_iff.mp performs
      exact .inl ⟨rfl, by simp [Succeed]⟩
  | cons step steps inductionHypothesis =>
      -- If the first step succeeds the others go on with one more step done.
      have goes_on
          {deeds : List (Activity κ τ)}
          (succeeds : ∀ duty, dutyOf? step = some duty →
            (call duty.callback).Performs ([] : List (Activity κ τ)) (.ok ()))
          (performs : (callInTurn (turnsFrom dutyOf? (done ++ [step]) steps)).Performs deeds
            outcome) :
          (outcome = none ∧ Succeed dutyOf? (step :: steps)) ∨
            ∃ first other rest duty cause,
              outcome = some (⟨done ++ first, other, duty⟩, cause) ∧
                step :: steps = first ++ other :: rest ∧
                Succeed dutyOf? first ∧ dutyOf? other = some duty ∧
                (call duty.callback).Performs ([] : List (Activity κ τ)) (.error cause) := by
        rcases inductionHypothesis performs with
          ⟨rfl, others⟩ | ⟨first, other, rest, duty, cause, rfl, rfl, others, due, failed⟩
        · exact .inl ⟨rfl, List.forall_mem_cons.mpr ⟨succeeds, others⟩⟩
        · refine .inr ⟨step :: first, other, rest, duty, cause, ?_, rfl,
            List.forall_mem_cons.mpr ⟨succeeds, others⟩, due, failed⟩
          rw [List.append_assoc, List.singleton_append]
      rw [turnsFrom] at performs
      cases due : dutyOf? step with
      | none =>
          rw [due] at performs
          exact goes_on (by simp [due]) performs
      | some duty =>
          rw [due] at performs
          simp only [Option.map_some, Option.toList_some, List.singleton_append, callInTurn,
            performs_bind_iff] at performs
          obtain ⟨result, _, later, rfl, called, rest⟩ := performs
          obtain rfl := eq_nil_of_performs_call called
          cases result with
          | ok _ =>
              refine goes_on ?_ rest
              rintro _ same
              rw [due] at same
              cases same
              exact called
          | error cause =>
              obtain ⟨_, rfl⟩ := performs_done_iff.mp rest
              exact .inr ⟨[], step, steps, duty, cause, by simp, rfl, by simp [Succeed], due,
                called⟩

/-! ## Taking steps -/

/-- Does what there is to do at a step, and hands over the deeds of telling of a failure. -/
def serve : Option (Duty κ τ ω) → Work κ τ ω (List (Activity κ τ) × Except StepError Unit)
  | none => .done ([], .ok ())
  | some duty =>
      (call duty.callback).bind fun result =>
        match result with
        | .ok _ => .done ([], .ok ())
        | .error cause => .done (duty.report cause, .error (duty.error cause))

/-- The deeds and the result of taking steps if the callbacks have the given outcome. -/
def concluded
    (steps : List Step)
    (configuration : Configuration) :
    Option (Turn κ τ ω × Failure) → List (Activity κ τ) × Option StepError × Configuration
  | none => (steps.map .completed, none, configuration.after steps)
  | some (turn, cause) =>
      (turn.before.map .completed ++ turn.duty.report cause ++
          [.failed turn.step (turn.duty.error cause)],
        some (turn.duty.error cause), configuration.after turn.before)

/-- Taking the steps behind some completed ones is calling their callbacks in turn. -/
theorem recorded_takeSteps_after
    {attempt : Step → Work κ τ ω (Except StepError Unit)}
    {dutyOf? : Step → Option (Duty κ τ ω)}
    (serves : ∀ step, (attempt step).recorded = serve (dutyOf? step))
    (configuration : Configuration)
    (done steps : List Step) :
    (takeSteps attempt steps (configuration.after done)).recorded.behind (done.map .completed) =
      (callInTurn (turnsFrom dutyOf? done steps)).bind
        fun outcome => .done (concluded (done ++ steps) configuration outcome) := by
  induction steps generalizing done with
  | nil => simp [takeSteps, recorded, bind, turnsFrom, callInTurn, concluded]
  | cons step steps inductionHypothesis =>
      have next := inductionHypothesis (done ++ [step])
      rw [Configuration.after_append, List.append_assoc, List.singleton_append, List.map_append,
        ← behind_behind] at next
      rw [takeSteps, recorded_bind, serves, turnsFrom, behind_bind]
      cases dutyOf? step with
      | none =>
          simp only [serve, bind, behind_nil]
          exact next
      | some duty =>
          simp only [serve, Option.map_some, Option.toList_some, List.singleton_append, callInTurn,
            bind_assoc]
          refine congrArg _ (funext fun result => ?_)
          cases result with
          | ok _ =>
              simp only [bind, behind_nil]
              exact next
          | error cause => simp [recorded, bind, concluded, Activity.deed?]

/-- Taking steps is calling their callbacks in turn. -/
theorem recorded_takeSteps
    {attempt : Step → Work κ τ ω (Except StepError Unit)}
    {dutyOf? : Step → Option (Duty κ τ ω)}
    (serves : ∀ step, (attempt step).recorded = serve (dutyOf? step))
    (configuration : Configuration)
    (steps : List Step) :
    (takeSteps attempt steps configuration).recorded =
      (callInTurn (turnsFrom dutyOf? [] steps)).bind
        fun outcome => .done (concluded steps configuration outcome) := by
  have takes := recorded_takeSteps_after serves configuration [] steps
  rwa [List.map_nil, behind_nil] at takes

/-- Running something that may fail and naming its error is what there is to do. -/
theorem recorded_call_mapError
    (callback : Callback κ τ ω (Except Failure Unit))
    (error : Failure → StepError) :
    ((call callback).bind fun result => .done (result.mapError error)).recorded =
      serve (some ⟨callback, error, fun _ => []⟩) := by
  rw [recorded_bind, recorded_call, bind_assoc]
  refine congrArg _ (funext fun result => ?_)
  cases result with
  | ok _ => rfl
  | error cause => rfl

end Work

end Statechart
