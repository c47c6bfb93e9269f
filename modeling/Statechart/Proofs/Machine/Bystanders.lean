import Statechart.Proofs.Machine.Matching

/-!
# Workers and their observers

Observers are bystanders. If they change without harm, the tasks of a worker match those of the
worker with the changed observers, and the observers that stay are told the same at the same
points of a task. Whether an observer breaks off makes no difference to what the worker does
next.
-/

namespace Statechart

variable {κ τ ω σ α β : Type}

/-- A machine compared with one whose observers have changed. An observer is known by the number
that it had before. -/
def ObserverChange.comparison
    (seen : ω → σ)
    (changes : List (ObserverChange κ τ ω)) : Comparison ω σ where
  seen := seen
  number? number := if number ∈ staying changes then some number else none
  otherNumber? number := (staying changes)[number]?

namespace Work

/-! ## Callbacks -/

section Callbacks

variable {comparison : Comparison ω σ} {related : α → β → Prop} {sight : σ}

theorem matches_ofProgram
    {program : Program κ τ α}
    {other : Program κ τ β}
    (agrees : program.Agrees related other) :
    (ofProgram program).Matches comparison related sight (ofProgram other) := by
  induction agrees with
  | done isRelated => exact .done isRelated
  | fire _ inductionHypothesis => exact .fire inductionHypothesis
  | look _ inductionHypothesis =>
      refine .read fun session other sessions _ => .note rfl ?_
      rw [sessions.view_eq]
      exact inductionHypothesis _
  | log _ inductionHypothesis => exact .note rfl inductionHypothesis

/-- Callbacks that agree match wherever they are called. -/
theorem matches_call
    {callback : Callback κ τ ω α}
    {other : Callback κ τ ω β}
    (agree : Agree comparison.seen related callback other) :
    (call callback).Matches comparison related sight (call other) :=
  .read fun _ _ sessions _ =>
    (matches_ofProgram (agree sessions.seen_eq)).bind fun _ _ _ results =>
      .retain results.2 (.done results.1)

theorem matches_ofProgram_bind
    {γ : Type}
    {property : γ → Prop}
    {program : Program κ τ γ}
    {continuation : γ → Work κ τ ω α}
    {other : Work κ τ ω β}
    (ends : program.EndsQuietly property)
    (rest : ∀ result, property result →
      (continuation result).Matches comparison related sight other) :
    ((ofProgram program).bind continuation).Matches comparison related sight other := by
  induction program with
  | done result => exact rest result ends
  | fire event next inductionHypothesis => exact ends.elim
  | look next inductionHypothesis =>
      exact .readLeft fun session _ => .noteLeft rfl (inductionHypothesis _ (ends session.view))
  | log entry next inductionHypothesis => exact .noteLeft rfl (inductionHypothesis ends)

/-- A callback that is not seen may be called by one worker alone. -/
theorem matches_call_bind
    {γ : Type}
    {callback : Callback κ τ ω γ}
    {continuation : γ → Work κ τ ω α}
    {other : Work κ τ ω β}
    (isUnseen : IsUnseen comparison.seen callback)
    (rest : ∀ result, (continuation result).Matches comparison related sight other) :
    ((call callback).bind continuation).Matches comparison related sight other := by
  refine .readLeft fun session sees => ?_
  rw [bind_assoc]
  exact matches_ofProgram_bind (isUnseen session.world) fun result sameSight =>
    .retainLeft (sameSight.trans sees) (rest result.1)

/-- A callback that is not seen may be called by the other worker alone. -/
theorem matches_bind_call
    {γ : Type}
    {callback : Callback κ τ ω γ}
    {work : Work κ τ ω α}
    {continuation : γ → Work κ τ ω β}
    (isUnseen : IsUnseen comparison.seen callback)
    (rest : ∀ result, work.Matches comparison related sight (continuation result)) :
    work.Matches comparison related sight ((call callback).bind continuation) := by
  have swapped : ((call callback).bind continuation).Matches comparison.swap
      (fun result other => related other result) sight work :=
    matches_call_bind isUnseen fun result => (rest result).swap
  exact swapped.swap

end Callbacks

/-! ## Observers -/

section Observers

variable {changes : List (ObserverChange κ τ ω)} {sight : σ}

/-- The number of an observer that stays is common to both machines. -/
theorem comparison_of_stays
    (seen : ω → σ)
    {told : List Nat}
    {number : Nat}
    {change : ObserverChange κ τ ω}
    {others : List (ObserverChange κ τ ω)}
    {after : Observer κ τ ω}
    (split : ObserverChange.staying changes =
      told ++ ObserverChange.stayingFrom number (change :: others))
    (stays : change.after? = some after) :
    ObserverChange.staying changes =
        (told ++ [number]) ++ ObserverChange.stayingFrom (number + 1) others ∧
      (ObserverChange.comparison seen changes).number? number = some number ∧
      (ObserverChange.comparison seen changes).otherNumber? told.length = some number := by
  have split_eq : ObserverChange.staying changes =
      (told ++ [number]) ++ ObserverChange.stayingFrom (number + 1) others := by
    rw [split, ObserverChange.stayingFrom, stays, List.append_assoc]
    rfl
  refine ⟨split_eq, ?_, ?_⟩
  · simp [ObserverChange.comparison, split_eq]
  · simp [ObserverChange.comparison, split_eq]

/-- An observer that is removed has no common number. -/
theorem comparison_of_removed
    (seen : ω → σ)
    {told : List Nat}
    {number : Nat}
    {change : ObserverChange κ τ ω}
    {others : List (ObserverChange κ τ ω)}
    (split : ObserverChange.staying changes =
      told ++ ObserverChange.stayingFrom number (change :: others))
    (earlier : ∀ other ∈ told, other < number)
    (removed : change.after? = none) :
    ObserverChange.staying changes =
        told ++ ObserverChange.stayingFrom (number + 1) others ∧
      (ObserverChange.comparison seen changes).number? number = none := by
  have split_eq : ObserverChange.staying changes =
      told ++ ObserverChange.stayingFrom (number + 1) others := by
    rw [split, ObserverChange.stayingFrom, removed]
  refine ⟨split_eq, if_neg fun member => ?_⟩
  rcases List.mem_append.mp (split_eq ▸ member) with before | behind
  · exact absurd (earlier number before) (Nat.lt_irrefl number)
  · exact absurd (ObserverChange.le_of_mem_stayingFrom behind) (Nat.not_succ_le_self number)

/-- Whether an observer breaks off makes no difference to what comes next. -/
theorem matches_of_outcomes
    {comparison : Comparison ω σ}
    {number otherNumber : Nat}
    {kind : String}
    {next otherNext : Work κ τ ω Unit}
    (rest : next.Matches comparison Eq sight otherNext)
    (outcome other : Outcome Unit) :
    (match outcome with
      | .returned _ => next
      | .panicked panic =>
          .note _ (.observerPanicked number kind panic.text) next : Work κ τ ω Unit).Matches
      comparison Eq sight
      (match other with
      | .returned _ => otherNext
      | .panicked panic => .note _ (.observerPanicked otherNumber kind panic.text) otherNext) := by
  cases outcome with
  | returned _ =>
      cases other with
      | returned _ => exact rest
      | panicked _ => exact .noteRight rfl rest
  | panicked _ =>
      cases other with
      | returned _ => exact .noteLeft rfl rest
      | panicked _ => exact .note rfl rest

/-- The remaining observers are told of something by both machines. -/
theorem matches_notifyFrom
    {seen : ω → σ}
    (notification : Notification κ τ)
    {others : List (ObserverChange κ τ ω)}
    (harmless : ∀ change ∈ others, change.IsHarmless seen)
    (told : List Nat)
    {number : Nat}
    (split : ObserverChange.staying changes = told ++ ObserverChange.stayingFrom number others)
    (earlier : ∀ other ∈ told, other < number) :
    (notifyFrom notification number (others.map ObserverChange.before)).Matches
      (ObserverChange.comparison seen changes) Eq sight
      (notifyFrom notification told.length (others.filterMap ObserverChange.after?)) := by
  -- The observers before `number` have been told. Those of them that stay are `told`, and their
  -- number is where the other machine has got to.
  induction others generalizing told number sight with
  | nil => exact .done rfl
  | cons change others inductionHypothesis =>
      have othersHarmless : ∀ change ∈ others, change.IsHarmless seen :=
        fun change member => harmless change (List.mem_cons_of_mem _ member)
      obtain ⟨before, after?⟩ := change
      cases after? with
      | none =>
          cases harmless _ List.mem_cons_self with
          | removed isUnseen =>
              obtain ⟨splitAfter, unknown⟩ := comparison_of_removed seen split earlier rfl
              have earlierAfter : ∀ other ∈ told, other < number + 1 :=
                fun other member => Nat.lt_succ_of_lt (earlier other member)
              have rest (sight : σ) := @inductionHypothesis sight othersHarmless told _
                splitAfter earlierAfter
              simp only [List.map_cons, List.filterMap_cons, notifyFrom]
              refine .noteLeft (by rw [Activity.common?, unknown]; rfl)
                (matches_call_bind (isUnseen notification) fun outcome => ?_)
              cases outcome with
              | returned _ => exact rest sight
              | panicked panic => exact .noteLeft rfl (rest sight)
      | some after =>
          obtain ⟨splitAfter, known, otherKnown⟩ := comparison_of_stays seen split rfl
          have earlierAfter : ∀ other ∈ told ++ [number], other < number + 1 := by
            intro other member
            rcases List.mem_append.mp member with before | same
            · exact Nat.lt_succ_of_lt (earlier other before)
            · exact List.mem_singleton.mp same ▸ Nat.lt_succ_self number
          have rest (sight : σ) := @inductionHypothesis sight othersHarmless (told ++ [number]) _
            splitAfter earlierAfter
          rw [List.length_append, List.length_singleton] at rest
          simp only [List.map_cons, List.filterMap_cons, notifyFrom]
          refine .note (by rw [Activity.common?, Activity.common?, known, otherKnown]) ?_
          cases harmless _ List.mem_cons_self with
          | altered agree =>
              exact (matches_call (agree notification)).bind fun sight outcome other _ =>
                matches_of_outcomes (rest sight) outcome other
          | exchanged isUnseen isUnseenAfter =>
              exact matches_call_bind (isUnseen notification) fun outcome =>
                matches_bind_call (isUnseenAfter notification) fun other =>
                  matches_of_outcomes (rest sight) outcome other

end Observers

/-! ## Parts of a task -/

section Parts

variable {seen : ω → σ} {changes : List (ObserverChange κ τ ω)} {sight : σ}

/-- A callback that goes by what is seen matches itself. -/
theorem matches_same_call {callback : Callback κ τ ω α} (goesBy : GoesBy seen callback) :
    (call callback).Matches (ObserverChange.comparison seen changes) Eq sight (call callback) :=
  matches_call goesBy

/-- Steps whose attempts match are taken alike. -/
theorem matches_takeSteps
    {comparison : Comparison ω σ}
    {attempt otherAttempt : Step → Work κ τ ω (Except StepError Unit)}
    (attempts : ∀ sight step,
      (attempt step).Matches comparison Eq sight (otherAttempt step))
    (steps : List Step)
    (configuration : Configuration) :
    (takeSteps attempt steps configuration).Matches comparison Eq sight
      (takeSteps otherAttempt steps configuration) := by
  induction steps generalizing configuration sight with
  | nil => exact .done rfl
  | cons step steps inductionHypothesis =>
      refine (attempts sight step).bind_eq fun sight result => ?_
      cases result with
      | ok _ => exact .note rfl (inductionHypothesis _)
      | error error => exact .note rfl (.done rfl)

/-- A state action that may be missing matches itself if it goes by what is seen. -/
theorem matches_runStateAction
    {action : Option (StateAction κ τ ω)}
    (goesBy : ∀ present, action = some present → GoesBy seen present.invoke) :
    (runStateAction action).Matches (ObserverChange.comparison seen changes) Eq sight
      (runStateAction action) := by
  cases action with
  | none => exact .done rfl
  | some action => exact matches_same_call (goesBy action rfl)

variable
  [DecidableEq κ]
  {definition : Definition κ τ ω}
  (bears : definition.Bears seen changes)

include bears

theorem matches_notify (notification : Notification κ τ) :
    (notify definition.observers notification).Matches
      (ObserverChange.comparison seen changes) Eq sight
      (notify (definition.withChanges changes).observers notification) := by
  rw [bears.observers_eq]
  exact matches_notifyFrom notification bears.isHarmless [] rfl nofun

theorem matches_notifyAll (notifications : List (Notification κ τ)) :
    (notifyAll definition.observers notifications).Matches
      (ObserverChange.comparison seen changes) Eq sight
      (notifyAll (definition.withChanges changes).observers notifications) := by
  induction notifications generalizing sight with
  | nil => exact .done rfl
  | cons notification notifications inductionHypothesis =>
      exact (matches_notify bears notification).bind_eq fun _ _ => inductionHypothesis

theorem matches_consult
    {entry : Entry κ τ ω}
    (listed : entry ∈ definition.table.entries)
    (event : Event τ) :
    (consult entry event).Matches (ObserverChange.comparison seen changes) Eq sight
      (consult entry event) := by
  unfold consult
  cases guarded : entry.transition.guard with
  | none => exact .done rfl
  | some guard =>
      exact (matches_same_call (bears.goesBy.guard event.payload listed guarded)).bind_eq
        fun _ _ => .note rfl (.done rfl)

theorem matches_exit (state : Nat) :
    (runStateAction (definition.exitAction? state)).Matches
      (ObserverChange.comparison seen changes) Eq sight
      (runStateAction ((definition.withChanges changes).exitAction? state)) :=
  matches_runStateAction fun _ => bears.goesBy.exit

theorem matches_entry (state : Nat) :
    (runStateAction (definition.entryAction? state)).Matches
      (ObserverChange.comparison seen changes) Eq sight
      (runStateAction ((definition.withChanges changes).entryAction? state)) :=
  matches_runStateAction fun _ => bears.goesBy.entry

theorem matches_reportErrors (context : Context κ τ) :
    (reportErrors definition context).Matches
      (ObserverChange.comparison seen changes) Eq sight
      (reportErrors (definition.withChanges changes) context) :=
  matches_notifyAll bears _

theorem matches_report
    (context : Context κ τ)
    (closing : Option (Notification κ τ))
    (worker : Worker κ) :
    (report definition context closing worker).Matches
      (ObserverChange.comparison seen changes) Eq sight
      (report (definition.withChanges changes) context closing worker) := by
  refine (matches_reportErrors bears context).bind_eq fun _ _ => ?_
  cases closing with
  | none => exact .done rfl
  | some notification => exact (matches_notify bears _).bind_eq fun _ _ => .done rfl

/-- An event is counted, published and reported. -/
theorem matches_finishEvent
    (context : Context κ τ)
    (closing : Option (Notification κ τ))
    (worker : Worker κ) :
    ((finishEvent definition worker).bind (report definition context closing)).Matches
      (ObserverChange.comparison seen changes) Eq sight
      ((finishEvent (definition.withChanges changes) worker).bind
        (report (definition.withChanges changes) context closing)) := by
  refine .read fun session other sessions _ => ?_
  simp only [sessions.clock_eq]
  exact .publish (matches_report bears _ _ _)

variable [StateKey κ]

theorem matches_attemptEntry (step : Step) :
    (attemptEntry definition step).Matches (ObserverChange.comparison seen changes) Eq sight
      (attemptEntry (definition.withChanges changes) step) := by
  cases step with
  | exit state => exact .done rfl
  | act position => exact .done rfl
  | enter state =>
      refine (matches_entry bears state).bind_eq fun _ result => ?_
      cases result with
      | ok _ => exact .done rfl
      | error failure => exact .note rfl (.done rfl)

theorem matches_leaveAll (states : List Nat) (worker : Worker κ) :
    (leaveAll definition states worker).Matches (ObserverChange.comparison seen changes) Eq sight
      (leaveAll (definition.withChanges changes) states worker) := by
  induction states generalizing worker sight with
  | nil => exact .done rfl
  | cons state states inductionHypothesis =>
      refine (matches_exit bears state).bind_eq fun _ result => ?_
      cases result with
      | ok _ => exact .note rfl (inductionHypothesis _)
      | error failure =>
          exact .note rfl ((matches_notify bears _).bind_eq fun _ _ =>
            .note rfl (inductionHypothesis _))

variable [Inspect τ]

/-- The same entry of the table is chosen, with the same faults. -/
theorem matches_choose
    (event : Event τ)
    {entries : List (Entry κ τ ω)}
    (listed : ∀ entry ∈ entries, entry ∈ definition.table.entries) :
    (choose definition event entries).Matches (ObserverChange.comparison seen changes)
      (fun selected other => selected = other ∧
        ∀ entry, selected.1 = some entry → entry ∈ definition.table.entries)
      sight (choose (definition.withChanges changes) event entries) := by
  induction entries generalizing sight with
  | nil => exact .done ⟨rfl, nofun⟩
  | cons entry entries inductionHypothesis =>
      have isListed := listed entry List.mem_cons_self
      have othersListed : ∀ entry ∈ entries, entry ∈ definition.table.entries :=
        fun entry member => listed entry (List.mem_cons_of_mem _ member)
      refine (matches_consult bears isListed event).bind_eq fun sight verdict => ?_
      cases verdict with
      | ok allowed =>
          cases allowed with
          | true => exact .note rfl (.done ⟨rfl, fun _ same => Option.some.inj same ▸ isListed⟩)
          | false => exact inductionHypothesis othersListed
      | error fault =>
          refine (inductionHypothesis othersListed).bind fun _ _ _ same => .done ?_
          obtain ⟨rfl, isListed⟩ := same
          exact ⟨rfl, isListed⟩

theorem matches_attempt
    {entry : Entry κ τ ω}
    (listed : entry ∈ definition.table.entries)
    (event : Event τ)
    (step : Step) :
    (attempt definition entry.source entry.transition.actions event step).Matches
      (ObserverChange.comparison seen changes) Eq sight
      (attempt (definition.withChanges changes) entry.source entry.transition.actions event
        step) := by
  cases step with
  | exit state => exact (matches_exit bears state).bind_eq fun _ _ => .done rfl
  | act position =>
      simp only [attempt]
      cases found : entry.transition.actions[position]? with
      | none => exact .done rfl
      | some action =>
          exact (matches_same_call
            (bears.goesBy.action event.payload listed (List.mem_of_getElem? found))).bind_eq
              fun _ _ => .done rfl
  | enter state => exact (matches_entry bears state).bind_eq fun _ _ => .done rfl

theorem matches_execute
    {entry : Entry κ τ ω}
    (listed : entry ∈ definition.table.entries)
    (event : Event τ)
    (configuration : Configuration) :
    (execute definition entry event configuration).Matches
      (ObserverChange.comparison seen changes) Eq sight
      (execute (definition.withChanges changes) entry event configuration) := by
  have taken (plan : Option Plan) :
      (takeSteps (attempt definition entry.source entry.transition.actions event)
          (Definition.stepsOf entry plan) configuration).Matches
        (ObserverChange.comparison seen changes) Eq sight
        (takeSteps
          (attempt (definition.withChanges changes) entry.source entry.transition.actions event)
          (Definition.stepsOf entry plan) configuration) :=
    matches_takeSteps (fun _ => matches_attempt bears listed event) _ _
  unfold execute
  cases planned : definition.planOf? configuration entry with
  | none =>
      have same : (definition.withChanges changes).planOf? configuration entry = none := planned
      simp only [same]
      exact taken none
  | some plan =>
      have same : (definition.withChanges changes).planOf? configuration entry = some plan :=
        planned
      simp only [same]
      exact .note rfl (taken (some plan))

omit [StateKey κ] in
theorem matches_conclude
    (worker : Worker κ)
    (context : Context κ τ)
    (outcome : Option StepError × Configuration) :
    (conclude definition worker context outcome).Matches
      (ObserverChange.comparison seen changes) Eq sight
      (conclude (definition.withChanges changes) worker context outcome) := by
  obtain ⟨failure, configuration⟩ := outcome
  cases failure with
  | some error => exact matches_finishEvent bears _ _ _
  | none =>
      refine .read fun session other sessions _ => ?_
      simp only [sessions.clock_eq]
      exact matches_finishEvent bears _ _ _

theorem matches_goOn
    (worker : Worker κ)
    (event : Event τ)
    (chosen : Option (Entry κ τ ω))
    (faults : List StepError)
    (listed : ∀ entry, chosen = some entry → entry ∈ definition.table.entries) :
    (goOn definition worker event (chosen, faults)).Matches
      (ObserverChange.comparison seen changes) Eq sight
      (goOn (definition.withChanges changes) worker event (chosen, faults)) := by
  cases chosen with
  | none => exact matches_finishEvent bears _ _ _
  | some entry =>
      exact (matches_execute bears (listed entry rfl) _ _).bind_eq
        fun _ _ => matches_conclude bears _ _ _

variable [DecidableEq τ]

/-- Both workers process an event. -/
theorem matches_process (worker : Worker κ) (event : Event τ) :
    (process definition worker event).Matches (ObserverChange.comparison seen changes) Eq sight
      (process (definition.withChanges changes) worker event) := by
  rw [process_eq, process_eq]
  have candidates_listed : ∀ entry ∈ definition.table.candidatesFrom definition.graph
      (worker.configuration.leaves definition.graph) event.trigger,
        entry ∈ definition.table.entries := by
    intro entry member
    obtain ⟨_, _, listed⟩ := List.mem_flatMap.mp member
    exact (List.mem_filter.mp listed).1
  refine (matches_notify bears _).bind_eq fun _ _ =>
    (matches_choose bears event candidates_listed).bind fun _ selected _ same => ?_
  obtain ⟨rfl, listed⟩ := same
  exact matches_goOn bears worker event selected.1 selected.2 listed

omit [Inspect τ] [DecidableEq τ] in
/-- Both workers enter their first configuration. -/
theorem matches_enterInitial (worker : Worker κ) :
    (enterInitial definition worker).Matches (ObserverChange.comparison seen changes) Eq sight
      (enterInitial (definition.withChanges changes) worker) := by
  refine (matches_takeSteps (fun _ => matches_attemptEntry bears) _ _).bind_eq
    fun _ outcome => ?_
  obtain ⟨failure, configuration⟩ := outcome
  cases failure with
  | none => exact .note rfl (.done rfl)
  | some error => exact (matches_notify bears _).bind_eq fun _ _ => .done rfl

end Parts
end Work
end Statechart
