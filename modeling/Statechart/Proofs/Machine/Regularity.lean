import Statechart.Proofs.Machine.Account

/-!
# What observers are told of an event

Every observer hears of an event in the same way. First it hears that the event begins,
then of each failure in the order in which the failures were captured, guard faults before
the failure of a step, and at last how the event ended. By the time it hears of failures and
of the end, the event has been counted and the new snapshot is published.
-/

namespace Statechart

variable {κ τ ω β : Type}

namespace Activity

/-- The notification that an observer is given. -/
def notification? (observer : Nat) : Activity κ τ → Option (Notification κ τ)
  | .notified other notification => if other = observer then some notification else none
  | _ => none

/-- The transition that is selected, in words. -/
def selected? : Activity κ τ → Option String
  | .selected transition => some transition
  | _ => none

/-- The failure of a step. -/
def failed? : Activity κ τ → Option StepError
  | .failed _ error => some error
  | _ => none

/-- The failure that is captured at an event: the fault of a guard, or the failure of a
step. -/
def captured? [StateKey κ] [Inspect τ] (definition : Definition κ τ ω) (event : Event τ) :
    Activity κ τ → Option StepError
  | .asked source (.error fault) =>
      some (.ofGuardFault (definition.graph.nameOf source) (inspect event.trigger) fault)
  | .failed _ error => some error
  | _ => none

end Activity

/-- Whether observers are told that a transition was completed. -/
def Notification.isCompletion : Notification κ τ → Bool
  | .completed .. => true
  | _ => false

/-- The notifications that an observer is given by some deeds, in order. -/
def received (observer : Nat) (deeds : List (Activity κ τ)) : List (Notification κ τ) :=
  deeds.filterMap (Activity.notification? observer)

/-! ## Looking at deeds -/

section Look

variable
  {observers : List (Observer κ τ ω)}
  {look : Activity κ τ → Option β}

/-- Who does not look at notifications does not see that observers are told. -/
theorem filterMap_told_of_blind
    (blind : ∀ observer notification, look (.notified observer notification) = none)
    (notification : Notification κ τ) :
    (told observers notification).filterMap look = [] := by
  rw [List.filterMap_eq_nil_iff]
  intro deed member
  obtain ⟨observer, _, rfl⟩ := List.mem_map.mp member
  exact blind observer notification

theorem filterMap_reporting_of_blind
    (blind : ∀ observer notification, look (.notified observer notification) = none)
    (context : Context κ τ)
    (closing : List (Notification κ τ)) :
    (reporting observers context closing).filterMap look = [] := by
  rw [reporting, List.filterMap_flatMap, List.flatMap_eq_nil_iff]
  exact fun notification _ => filterMap_told_of_blind blind notification

/-- Each observer is told once. -/
theorem received_told
    {observer : Nat}
    (present : observer < observers.length)
    (notification : Notification κ τ) :
    received observer (told observers notification) = [notification] := by
  rw [received, told]
  induction observers with
  | nil => contradiction
  | cons first others inductionHypothesis =>
      -- The last number is that of the observer, or one of the others is.
      rw [List.length_cons, List.range_succ, List.map_append, List.filterMap_append]
      rcases Nat.lt_succ_iff_lt_or_eq.mp present with earlier | rfl
      · rw [inductionHypothesis earlier]
        simp [Activity.notification?, earlier.ne']
      · have noOther : ((List.range others.length).map fun observer =>
            (Activity.notified observer notification : Activity κ τ)).filterMap
              (Activity.notification? others.length) = [] := by
          rw [List.filterMap_eq_nil_iff]
          intro deed member
          obtain ⟨observer, inRange, rfl⟩ := List.mem_map.mp member
          exact if_neg (List.mem_range.mp inRange).ne
        rw [noOther]
        simp [Activity.notification?]

/-- Each observer hears of all failures and then of the end. -/
theorem received_reporting
    {observer : Nat}
    (present : observer < observers.length)
    (context : Context κ τ)
    (closing : List (Notification κ τ)) :
    received observer (reporting observers context closing) =
      context.errors.map (.exception context) ++ closing := by
  have each (notification : Notification κ τ) :
      (told observers notification).filterMap (Activity.notification? observer) =
        [notification] :=
    received_told present notification
  simp only [received, reporting, List.filterMap_flatMap, each, List.flatMap_singleton']

end Look

/-! ## The account of an event -/

namespace Account

variable
  [DecidableEq κ]
  [StateKey κ]
  [DecidableEq τ]
  [Inspect τ]
  {definition : Definition κ τ ω}
  {account : Account κ τ ω}

/-- An event has been processed and told as it should be. The snapshot is the one that was
shown when the event began. -/
structure IsRegular
    (definition : Definition κ τ ω)
    (shown : Snapshot κ)
    (account : Account κ τ ω) : Prop where
  /-- Guards were asked and steps were taken as they should be. -/
  isRight : account.IsRight definition
  /-- Every observer hears of the begin, then of each failure, and then of the end. -/
  received_eq {observer : Nat} : observer < definition.observers.length →
    received observer (account.deeds definition) =
      .begin (account.begun definition) ::
        ((account.context definition).errors.map (.exception (account.context definition)) ++
          account.closing definition)
  /-- The failures are told in the order in which they were captured. -/
  errors_eq : (account.context definition).errors =
    (account.deeds definition).filterMap (Activity.captured? definition account.event)
  /-- The faults of guards come first, and at most one failure of a step comes last. -/
  faults_first : ∃ (faults : List StepError) (failure : Option StepError),
    (account.context definition).errors = faults ++ failure.toList ∧
      (∀ fault ∈ faults, fault.isGuardFault = true) ∧
      ∀ error ∈ failure, error.isGuardFault = false
  /-- The event is completed exactly if a transition was selected and no step failed. The
  leaves before and after it are those shown before and after it. -/
  completed_iff :
    account.closing definition =
        [.completed shown.active ((account.after definition).snapshot definition).active
          (account.context definition)] ↔
      (∃ transition, .selected transition ∈ account.deeds definition) ∧
        ∀ step error, .failed step error ∉ account.deeds definition
  /-- The event is declined exactly if no transition was selected. -/
  declined_iff :
    account.closing definition = [.declined (account.context definition)] ↔
      ∀ transition, .selected transition ∉ account.deeds definition
  /-- The event is neither completed nor declined exactly if a step failed. -/
  neither_iff :
    account.closing definition = [] ↔
      ∃ step error, .failed step error ∈ account.deeds definition
  /-- The context says that the event failed exactly if a step failed. -/
  hasFailed_iff :
    (account.context definition).hasFailed = true ↔
      ∃ step error, .failed step error ∈ account.deeds definition
  /-- The event is counted. -/
  count_eq :
    (account.after definition).metadata.count = shown.metadata.count + 1
  /-- As long as there are numbers left one event more has been processed. -/
  processed_eq :
    shown.metadata.processed + 1 < Word.bound64 →
      (account.after definition).metadata.processed = shown.metadata.processed + 1
  /-- The new snapshot is published once, when observers have only heard of the begin. -/
  published : ∃ early late,
    account.deeds definition =
        early ++ .published ((account.after definition).snapshot definition) :: late ∧
      (∀ deed ∈ early ++ late, deed.published? = none) ∧
      ∀ observer notification, .notified observer notification ∈ early →
        notification = .begin (account.begun definition)
  /-- A transition is recorded exactly if observers are told of its completion. -/
  history_eq :
    (account.after definition).history =
      if (account.closing definition).any Notification.isCompletion then
        shown.history.record (account.record definition)
      else shown.history

omit [DecidableEq κ] [DecidableEq τ] in
/-- What can be seen without looking at notifications and snapshots happens while a
transition is selected and carried out. -/
theorem filterMap_deeds_of_blind
    {look : Activity κ τ → Option β}
    (blind : ∀ observer notification, look (.notified observer notification) = none)
    (blindToSnapshots : ∀ snapshot, look (.published snapshot) = none) :
    (account.deeds definition).filterMap look =
      (Work.selecting account.answers account.chosen).filterMap look ++
        account.steps.filterMap look := by
  rw [deeds, early, List.filterMap_append, List.filterMap_append, List.filterMap_append,
    filterMap_told_of_blind blind, List.filterMap_cons, blindToSnapshots,
    filterMap_reporting_of_blind blind, List.append_nil, List.nil_append]

namespace IsRight

variable (isRight : account.IsRight definition)

include isRight

/-- Who looks for failures sees at most one while the steps are taken. -/
theorem filterMap_steps
    {look : Activity κ τ → Option StepError}
    (failed : ∀ step error, look (.failed step error) = some error)
    (completed : ∀ step, look (.completed step) = none)
    (planned : ∀ exits entries, look (.planned exits entries) = none) :
    account.steps.filterMap look = account.failure.toList := by
  cases selection : account.chosen with
  | none =>
      obtain ⟨_, steps_eq, failure_eq⟩ := isRight.idle selection
      rw [steps_eq, failure_eq]
      rfl
  | some entry =>
      obtain ⟨steps, steps_eq, taken⟩ := isRight.taken selection
      have noPlan : (Work.planning definition
          (definition.planOf? account.before.configuration entry)).filterMap look = [] := by
        rw [List.filterMap_eq_nil_iff]
        intro deed member
        obtain ⟨plan, _, rfl⟩ := Option.map_eq_some_iff.mp (Option.mem_toList.mp member)
        exact planned _ _
      have noCompletion (steps : List Step) :
          (steps.map (Activity.completed : Step → Activity κ τ)).filterMap look = [] := by
        rw [List.filterMap_eq_nil_iff]
        intro deed member
        obtain ⟨step, _, rfl⟩ := List.mem_map.mp member
        exact completed step
      rw [steps_eq, List.filterMap_append, noPlan, List.nil_append]
      generalize account.failure = failure, account.done = done at taken
      cases taken with
      | all => exact noCompletion _
      | upTo _ fails =>
          obtain ⟨rfl, _⟩ := fails
          rw [List.filterMap_append, List.append_nil, noCompletion]
          simp [failed]

/-- The failures of steps are seen in the journal. -/
theorem filterMap_failed :
    (account.deeds definition).filterMap Activity.failed? = account.failure.toList := by
  have nothingAsked : (Work.selecting account.answers account.chosen).filterMap
      (Activity.failed? : Activity κ τ → _) = [] := by
    rw [List.filterMap_eq_nil_iff]
    intro deed member
    rcases Work.mem_selecting member with ⟨_, _, rfl⟩ | ⟨_, rfl⟩
    · rfl
    · rfl
  rw [filterMap_deeds_of_blind (fun _ _ => rfl) (fun _ => rfl), nothingAsked, List.nil_append]
  exact isRight.filterMap_steps (fun _ _ => rfl) (fun _ => rfl) (fun _ _ => rfl)

/-- The selected transition is seen in the journal. -/
theorem filterMap_selected :
    (account.deeds definition).filterMap Activity.selected? =
      (account.chosen.map fun entry => entry.transition.describe).toList := by
  have nothingSelected : account.steps.filterMap Activity.selected? = [] := by
    rw [List.filterMap_eq_nil_iff]
    intro deed member
    rcases isRight.mem_steps member with ⟨_, _, rfl⟩ | ⟨_, rfl⟩ | ⟨_, _, rfl, _⟩
    · rfl
    · rfl
    · rfl
  have nothingAsked : (account.answers.map fun answer =>
      (Activity.asked answer.1.source answer.2 : Activity κ τ)).filterMap
        Activity.selected? = [] := by
    rw [List.filterMap_eq_nil_iff]
    intro deed member
    obtain ⟨_, _, rfl⟩ := List.mem_map.mp member
    rfl
  rw [filterMap_deeds_of_blind (fun _ _ => rfl) (fun _ => rfl), nothingSelected, List.append_nil,
    Work.selecting, List.filterMap_append, nothingAsked]
  cases account.chosen with
  | none => rfl
  | some entry => rfl

/-- The failures that are told are those captured, in the order of capture. -/
theorem filterMap_captured
    (forest : definition.graph.IsForest)
    (fits : definition.table.Fits definition.graph) :
    (account.deeds definition).filterMap (Activity.captured? definition account.event) =
      account.errors := by
  have same_fault : ∀ answer ∈ account.answers,
      Activity.captured? definition account.event
          (.asked answer.1.source answer.2 : Activity κ τ) =
        Definition.faultOf? account.event answer := by
    intro answer member
    have candidate := isRight.selects.asked_isPrefix.subset (List.mem_map_of_mem member)
    obtain ⟨_, _, listed⟩ := List.mem_flatMap.mp candidate
    have name_eq := Table.nameOf_source_of_entryOf forest (fits _ (List.mem_filter.mp listed).1)
    rcases answer with ⟨entry, verdict⟩
    cases verdict with
    | ok _ => rfl
    | error fault => exact congrArg (fun name => some (StepError.ofGuardFault name _ fault)) name_eq
  have faults_eq : (Work.selecting account.answers account.chosen).filterMap
      (Activity.captured? definition account.event) = account.faults := by
    have nothingChosen : (account.chosen.map fun entry =>
        (Activity.selected entry.transition.describe : Activity κ τ)).toList.filterMap
          (Activity.captured? definition account.event) = [] := by
      cases account.chosen with
      | none => rfl
      | some entry => rfl
    rw [Work.selecting, List.filterMap_append, nothingChosen, List.append_nil,
      List.filterMap_map, isRight.selects.faults_eq]
    exact List.filterMap_congr same_fault
  rw [filterMap_deeds_of_blind (fun _ _ => rfl) (fun _ => rfl), faults_eq,
    isRight.filterMap_steps (fun _ _ => rfl) (fun _ => rfl) (fun _ _ => rfl), errors]

/-- A step failed exactly if there is a failure. -/
theorem failed_iff :
    (∃ step error, .failed step error ∈ account.deeds definition) ↔
      account.failure.isSome = true := by
  have seen (error : StepError) :
      (∃ deed ∈ account.deeds definition, deed.failed? = some error) ↔
        account.failure = some error := by
    rw [← List.mem_filterMap, isRight.filterMap_failed, Option.mem_toList]
  rw [Option.isSome_iff_exists]
  constructor
  · rintro ⟨step, error, member⟩
    exact ⟨error, (seen error).mp ⟨_, member, rfl⟩⟩
  · rintro ⟨error, failure_eq⟩
    obtain ⟨deed, member, failed⟩ := (seen error).mpr failure_eq
    cases deed <;> cases failed
    exact ⟨_, _, member⟩

/-- A transition was selected exactly if there is an entry. -/
theorem selected_iff :
    (∃ transition, .selected transition ∈ account.deeds definition) ↔
      account.chosen.isSome = true := by
  have seen (transition : String) :
      (∃ deed ∈ account.deeds definition, deed.selected? = some transition) ↔
        account.chosen.map (fun entry => entry.transition.describe) = some transition := by
    rw [← List.mem_filterMap, isRight.filterMap_selected, Option.mem_toList]
  rw [← Option.isSome_map, Option.isSome_iff_exists]
  constructor
  · rintro ⟨transition, member⟩
    exact ⟨transition, (seen transition).mp ⟨_, member, rfl⟩⟩
  · rintro ⟨transition, chosen_eq⟩
    obtain ⟨deed, member, selected⟩ := (seen transition).mpr chosen_eq
    cases deed <;> cases selected
    exact ⟨_, member⟩

/-- The faults of guards are no failures of steps. -/
theorem isGuardFault_of_mem_faults {fault : StepError} (member : fault ∈ account.faults) :
    fault.isGuardFault = true := by
  rw [isRight.selects.faults_eq] at member
  obtain ⟨answer, _, fault_eq⟩ := List.mem_filterMap.mp member
  rcases answer with ⟨entry, verdict⟩
  cases verdict with
  | ok _ => cases fault_eq
  | error cause =>
      cases fault_eq
      exact StepError.isGuardFault_ofGuardFault _ _ _

/-- The failure of a step is no fault of a guard. -/
theorem isGuardFault_of_failure {error : StepError} (failed : account.failure = some error) :
    error.isGuardFault = false := by
  cases selection : account.chosen with
  | none =>
      rw [(isRight.idle selection).2.2] at failed
      contradiction
  | some entry =>
      obtain ⟨_, _, taken⟩ := isRight.taken selection
      rw [failed] at taken
      generalize account.done = done at taken
      cases taken with
      | upTo _ fails =>
          obtain ⟨_, cause, rfl⟩ := fails
          exact definition.isGuardFault_failureOf entry account.event _ cause

/-- Each observer hears of the begin, of each failure and of the end. -/
theorem received_deeds
    {observer : Nat}
    (present : observer < definition.observers.length) :
    received observer (account.deeds definition) =
      .begin (account.begun definition) ::
        ((account.context definition).errors.map (.exception (account.context definition)) ++
          account.closing definition) := by
  have silent
      {deeds : List (Activity κ τ)}
      (apart : ∀ deed ∈ deeds, deed.notification? observer = none) :
      received observer deeds = [] :=
    List.filterMap_eq_nil_iff.mpr apart
  have selecting : received observer (Work.selecting account.answers account.chosen) = [] := by
    refine silent fun deed member => ?_
    rcases Work.mem_selecting member with ⟨_, _, rfl⟩ | ⟨_, rfl⟩
    · rfl
    · rfl
  have stepping : received observer account.steps = [] := by
    refine silent fun deed member => ?_
    rcases isRight.mem_steps member with ⟨_, _, rfl⟩ | ⟨_, rfl⟩ | ⟨_, _, rfl, _⟩
    · rfl
    · rfl
    · rfl
  have split : received observer (account.deeds definition) =
      received observer (told definition.observers (.begin (account.begun definition))) ++
        received observer (Work.selecting account.answers account.chosen) ++
        received observer account.steps ++
        received observer (reporting definition.observers (account.context definition)
          (account.closing definition)) := by
    simp only [received, deeds, early, List.filterMap_append]
    rfl
  rw [split, selecting, stepping, received_told present, received_reporting present]
  rfl

/-- Before the event is counted observers only hear that it begins. -/
theorem eq_begin_of_mem_early
    {observer : Nat}
    {notification : Notification κ τ}
    (member : .notified observer notification ∈ account.early definition) :
    notification = .begin (account.begun definition) := by
  rw [early, List.mem_append, List.mem_append] at member
  rcases member with (member | member) | member
  · obtain ⟨_, _, same⟩ := List.mem_map.mp member
    cases same
    rfl
  · rcases Work.mem_selecting member with ⟨_, _, same⟩ | ⟨_, same⟩
    · contradiction
    · contradiction
  · rcases isRight.mem_steps member with ⟨_, _, same⟩ | ⟨_, same⟩ | ⟨_, _, same, _⟩
    · contradiction
    · contradiction
    · contradiction

end IsRight

omit [DecidableEq κ] [DecidableEq τ] in
theorem errors_context : (account.context definition).errors = account.errors := by
  unfold context
  cases account.chosen with
  | none => rfl
  | some entry => rfl

/-- The end that is told goes with what was selected and with what failed. -/
theorem IsRight.closing_cases (isRight : account.IsRight definition) :
    (account.chosen = none ∧ account.failure = none ∧
        account.closing definition = [.declined (account.context definition)]) ∨
      (account.chosen.isSome = true ∧ account.failure = none ∧
        account.closing definition =
          [.completed (account.before.snapshot definition).active
            ((account.after definition).snapshot definition).active
            (account.context definition)]) ∨
      (account.chosen.isSome = true ∧ account.failure.isSome = true ∧
        account.closing definition = []) := by
  cases chosen_eq : account.chosen with
  | none =>
      refine .inl ⟨rfl, (isRight.idle chosen_eq).2.2, ?_⟩
      rw [closing, chosen_eq]
  | some entry =>
      cases failure_eq : account.failure with
      | none =>
          refine .inr (.inl ⟨rfl, rfl, ?_⟩)
          rw [closing, chosen_eq, failure_eq]
          rfl
      | some error =>
          refine .inr (.inr ⟨rfl, rfl, ?_⟩)
          rw [closing, chosen_eq, failure_eq]

/-- What is right is regular where the worker was shown as it was before the event. -/
theorem IsRight.isRegular
    (isRight : account.IsRight definition)
    (forest : definition.graph.IsForest)
    (fits : definition.table.Fits definition.graph) :
    account.IsRegular definition (account.before.snapshot definition) := by
  have unselected_iff : (∀ transition, .selected transition ∉ account.deeds definition) ↔
      account.chosen = none := by
    rw [← Option.not_isSome_iff_eq_none, ← isRight.selected_iff, not_exists]
  have unfailing_iff : (∀ step error, .failed step error ∉ account.deeds definition) ↔
      account.failure = none := by
    rw [← Option.not_isSome_iff_eq_none, ← isRight.failed_iff]
    simp only [not_exists]
  exact {
    isRight := isRight
    received_eq := isRight.received_deeds
    errors_eq := errors_context.trans (isRight.filterMap_captured forest fits).symm
    faults_first := ⟨account.faults, account.failure, errors_context,
      fun _ => isRight.isGuardFault_of_mem_faults, fun _ => isRight.isGuardFault_of_failure⟩
    completed_iff := by
      rw [isRight.selected_iff, unfailing_iff]
      rcases isRight.closing_cases with ⟨nothing, _, closing_eq⟩ | ⟨chosen, succeeded, closing_eq⟩ |
        ⟨_, failed, closing_eq⟩
      · simp [closing_eq, nothing]
      · simp [closing_eq, chosen, succeeded]
      · simp [closing_eq, Option.isSome_iff_ne_none.mp failed]
    declined_iff := by
      rw [unselected_iff]
      rcases isRight.closing_cases with ⟨nothing, _, closing_eq⟩ | ⟨chosen, _, closing_eq⟩ |
        ⟨chosen, _, closing_eq⟩
      · simp [closing_eq, nothing]
      · simp [closing_eq, Option.isSome_iff_ne_none.mp chosen]
      · simp [closing_eq, Option.isSome_iff_ne_none.mp chosen]
    neither_iff := by
      rw [isRight.failed_iff]
      rcases isRight.closing_cases with ⟨_, succeeded, closing_eq⟩ | ⟨_, succeeded, closing_eq⟩ |
        ⟨_, failed, closing_eq⟩
      · simp [closing_eq, succeeded]
      · simp [closing_eq, succeeded]
      · simp [closing_eq, failed]
    hasFailed_iff := by
      rw [isRight.failed_iff, Context.hasFailed, errors_context, errors, List.any_append,
        List.any_eq_false.mpr (by
          intro fault member
          simp [isRight.isGuardFault_of_mem_faults member]), Bool.false_or]
      cases failure_eq : account.failure with
      | none => simp
      | some error => simp [isRight.isGuardFault_of_failure failure_eq]
    count_eq := rfl
    processed_eq := Word.toNat_add_ofNat
    published := by
      refine ⟨account.early definition, reporting definition.observers
        (account.context definition) (account.closing definition), rfl, ?_, ?_⟩
      · intro deed member
        rcases List.mem_append.mp member with member | member
        · exact isRight.published?_of_mem_early member
        · exact published?_of_mem_reporting member
      · exact fun _ _ => isRight.eq_begin_of_mem_early
    history_eq := by
      rcases isRight.closing_cases with ⟨nothing, _, closing_eq⟩ | ⟨chosen, succeeded, closing_eq⟩ |
        ⟨_, failed, closing_eq⟩
      · simp [closing_eq, nothing, after, isCompleted, Notification.isCompletion, Worker.counted,
          Worker.snapshot]
      · simp [closing_eq, chosen, succeeded, after, isCompleted, Notification.isCompletion,
          Worker.counted, Worker.snapshot]
      · simp [closing_eq, Option.isSome_iff_ne_none.mp failed, after, isCompleted, Worker.counted,
          Worker.snapshot] }

end Account

end Statechart
