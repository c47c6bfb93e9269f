import Statechart.Proofs.Machine.Tasks

/-!
# Work that looks

Callbacks may look at their machine, and the journal tells what they saw. Most parts of a
task are plain: they publish nothing, and what they note as seen is what they have just seen.
As nobody but the worker publishes, what is seen is still shown when it is noted. What the
journal tells of the past does not matter to them.
-/

namespace Statechart

variable {κ τ ω α β : Type}

/-- What a callback saw of its machine. -/
def Activity.seen? : Activity κ τ → Option (View κ)
  | .shown view => some view
  | _ => none

/-- A session with a journal that goes back further. -/
def Session.withPast
    (session : Session κ τ ω)
    (past : List (Activity κ τ)) : Session κ τ ω :=
  { session with journal := session.journal ++ past }

namespace Work

/-! ## Plain work -/

/-- Work that publishes nothing, and notes nothing as seen but what it has just seen. -/
inductive IsPlain : Work κ τ ω α → Prop
  /-- Nothing is requested any more. -/
  | done (result : α) : IsPlain (.done result)
  /-- A remark is noted that is not about something seen. -/
  | note
      {activity : Activity κ τ}
      {isRemark : activity.IsRemark}
      {next : Work κ τ ω α}
      (notSeen : activity.seen? = none)
      (rest : IsPlain next) :
      IsPlain (.note activity isRemark next)
  /-- An event is queued, or not. -/
  | fire
      {event : Event τ}
      {next : Except MachineError Unit → Work κ τ ω α}
      (rest : ∀ answer, IsPlain (next answer)) :
      IsPlain (.fire event next)
  /-- What can be seen is noted at once. -/
  | look
      {next : View κ → Work κ τ ω α}
      (rest : ∀ view, IsPlain (next view)) :
      IsPlain (.read fun session => .note _ (.shown session.view) (next session.view))
  /-- The session is looked at for something else than what its journal tells of the past. -/
  | read
      {next : Session κ τ ω → Work κ τ ω α}
      (blind : ∀ session past, next (session.withPast past) = next session)
      (rest : ∀ session, IsPlain (next session)) :
      IsPlain (.read next)
  /-- The state of the client is kept. -/
  | retain
      {world : ω}
      {next : Work κ τ ω α}
      (rest : IsPlain next) :
      IsPlain (.retain world next)

/-- Plain work that goes on with plain work is plain. -/
theorem IsPlain.bind
    {work : Work κ τ ω α}
    {continuation : α → Work κ τ ω β}
    (first : work.IsPlain)
    (second : ∀ result, (continuation result).IsPlain) :
    (work.bind continuation).IsPlain := by
  induction first with
  | done result => exact second result
  | note notSeen _ inductionHypothesis => exact .note notSeen inductionHypothesis
  | fire _ inductionHypothesis => exact .fire inductionHypothesis
  | look _ inductionHypothesis => exact .look inductionHypothesis
  | read blind _ inductionHypothesis =>
      exact .read (fun session past => congrArg (Work.bind · continuation) (blind session past))
        inductionHypothesis
  | retain _ inductionHypothesis => exact .retain inductionHypothesis

/-- Plain work publishes nothing on its way. -/
theorem IsPlain.unpublished
    {work later : Work κ τ ω α}
    (isPlain : work.IsPlain)
    {deeds : List (Activity κ τ)}
    (leads : work.Leads deeds later) :
    ∀ deed ∈ deeds, deed.published? = none := by
  have noted
      {activity : Activity κ τ}
      (isRemark : activity.IsRemark)
      {deeds : List (Activity κ τ)}
      (others : ∀ deed ∈ deeds, deed.published? = none) :
      ∀ deed ∈ activity.deed?.toList ++ deeds, deed.published? = none := by
    intro deed member
    rcases List.mem_append.mp member with own | other
    · cases isRemark <;> simp_all [Activity.deed?, Activity.published?]
    · exact others deed other
  induction isPlain generalizing deeds with
  | done result =>
      cases leads
      simp
  | @note _ isRemark _ _ _ inductionHypothesis =>
      cases leads with
      | refl => simp
      | note leads => exact noted isRemark (inductionHypothesis leads)
  | fire _ inductionHypothesis =>
      cases leads with
      | refl => simp
      | fire answer leads => exact inductionHypothesis answer leads
  | look _ inductionHypothesis =>
      cases leads with
      | refl => simp
      | read _ leads =>
          cases leads with
          | refl => simp
          | note leads => exact noted (.shown _) (inductionHypothesis _ leads)
  | read _ _ inductionHypothesis =>
      cases leads with
      | refl => simp
      | read _ leads => exact inductionHypothesis _ leads
  | retain _ inductionHypothesis =>
      cases leads with
      | refl => simp
      | retain leads => exact inductionHypothesis leads

/-! ## The plain parts of a task -/

theorem isPlain_ofProgram (program : Program κ τ α) :
    (ofProgram program : Work κ τ ω α).IsPlain := by
  induction program with
  | done result => exact .done result
  | fire event next inductionHypothesis => exact .fire inductionHypothesis
  | look next inductionHypothesis => exact .look inductionHypothesis
  | log entry next inductionHypothesis => exact .note rfl inductionHypothesis

theorem isPlain_call (callback : Callback κ τ ω α) : (call callback).IsPlain :=
  .read (fun _ _ => rfl) fun _ => (isPlain_ofProgram _).bind fun _ => .retain (.done _)

theorem isPlain_notifyFrom
    (notification : Notification κ τ)
    (number : Nat)
    (observers : List (Observer κ τ ω)) :
    (notifyFrom notification number observers).IsPlain := by
  induction observers generalizing number with
  | nil => exact .done ()
  | cons observer observers inductionHypothesis =>
      refine .note rfl ((isPlain_call _).bind fun outcome => ?_)
      cases outcome with
      | returned _ => exact inductionHypothesis _
      | panicked panic => exact .note rfl (inductionHypothesis _)

theorem isPlain_notify
    (observers : List (Observer κ τ ω))
    (notification : Notification κ τ) :
    (notify observers notification).IsPlain :=
  isPlain_notifyFrom notification 0 observers

theorem isPlain_notifyAll
    (observers : List (Observer κ τ ω))
    (notifications : List (Notification κ τ)) :
    (notifyAll observers notifications).IsPlain := by
  induction notifications with
  | nil => exact .done ()
  | cons notification notifications inductionHypothesis =>
      exact (isPlain_notify observers notification).bind fun _ => inductionHypothesis

theorem isPlain_consult (entry : Entry κ τ ω) (event : Event τ) :
    (consult entry event).IsPlain := by
  rw [consult]
  split
  · exact .done _
  · exact (isPlain_call _).bind fun _ => .note rfl (.done _)

theorem isPlain_runStateAction (action : Option (StateAction κ τ ω)) :
    (runStateAction action).IsPlain := by
  cases action with
  | none => exact .done _
  | some action => exact isPlain_call _

theorem isPlain_takeSteps
    {attempt : Step → Work κ τ ω (Except StepError Unit)}
    (attempts : ∀ step, (attempt step).IsPlain)
    (steps : List Step)
    (configuration : Configuration) :
    (takeSteps attempt steps configuration).IsPlain := by
  induction steps generalizing configuration with
  | nil => exact .done _
  | cons step steps inductionHypothesis =>
      refine (attempts step).bind fun result => ?_
      cases result with
      | ok _ => exact .note rfl (inductionHypothesis _)
      | error error => exact .note rfl (.done _)

section Parts

variable [StateKey κ] (definition : Definition κ τ ω)

theorem isPlain_choose
    [Inspect τ]
    (event : Event τ)
    (entries : List (Entry κ τ ω)) :
    (choose definition event entries).IsPlain := by
  induction entries with
  | nil => exact .done _
  | cons entry entries inductionHypothesis =>
      refine (isPlain_consult entry event).bind fun verdict => ?_
      cases verdict with
      | ok allowed =>
          cases allowed with
          | true => exact .note rfl (.done _)
          | false => exact inductionHypothesis
      | error fault => exact inductionHypothesis.bind fun _ => .done _

omit [StateKey κ] in
theorem isPlain_reportErrors (context : Context κ τ) :
    (reportErrors definition context).IsPlain :=
  isPlain_notifyAll definition.observers _

variable [DecidableEq κ]

theorem isPlain_attempt
    [Inspect τ]
    (source : Nat)
    (actions : List (Action κ τ ω))
    (event : Event τ)
    (step : Step) :
    (attempt definition source actions event step).IsPlain := by
  cases step with
  | exit state => exact (isPlain_runStateAction _).bind fun _ => .done _
  | act position =>
      rw [attempt]
      split
      · exact .done _
      · exact (isPlain_call _).bind fun _ => .done _
  | enter state => exact (isPlain_runStateAction _).bind fun _ => .done _

theorem isPlain_execute
    [Inspect τ]
    (entry : Entry κ τ ω)
    (event : Event τ)
    (configuration : Configuration) :
    (execute definition entry event configuration).IsPlain := by
  have takes := isPlain_takeSteps
    (isPlain_attempt definition entry.source entry.transition.actions event)
    (Definition.stepsOf entry (definition.planOf? configuration entry)) configuration
  unfold execute
  cases planned : definition.planOf? configuration entry with
  | none => simpa only [planned] using takes
  | some plan => exact .note rfl (by simpa only [planned] using takes)

theorem isPlain_attemptEntry (step : Step) :
    (attemptEntry definition step : Work κ τ ω _).IsPlain := by
  cases step with
  | exit state => exact .done _
  | act position => exact .done _
  | enter state =>
      refine (isPlain_runStateAction _).bind fun result => ?_
      cases result with
      | ok _ => exact .done _
      | error failure => exact .note rfl (.done _)

theorem isPlain_enterInitial (worker : Worker κ) : (enterInitial definition worker).IsPlain := by
  refine (isPlain_takeSteps (isPlain_attemptEntry definition) _ _).bind fun outcome => ?_
  obtain ⟨failure, configuration⟩ := outcome
  cases failure with
  | none => exact .note rfl (.done _)
  | some error => exact (isPlain_notify _ _).bind fun _ => .done _

theorem isPlain_leaveAll (states : List Nat) (worker : Worker κ) :
    (leaveAll definition states worker).IsPlain := by
  induction states generalizing worker with
  | nil => exact .done _
  | cons state states inductionHypothesis =>
      refine (isPlain_runStateAction _).bind fun result => ?_
      cases result with
      | ok _ => exact .note rfl (inductionHypothesis _)
      | error failure =>
          exact .note rfl ((isPlain_notify _ _).bind fun _ =>
            .note rfl (inductionHypothesis _))

end Parts
end Work
end Statechart
