import Statechart.Machine.Definition

/-!
# What callbacks see of one another

Callbacks share the state of their client. What is seen of it is given by a function of that
state. A callback goes by what is seen if it does the same wherever it sees the same. Two
observers that differ in their outcomes alone cannot be told apart by callbacks that go by what
is seen, and an observer that queues nothing and whose effects are not seen can be removed
behind their backs.
-/

namespace Statechart

variable {κ τ ω σ α β : Type}

/-! ## Programs -/

namespace Program

/-- Two programs make the same requests, whatever these are answered, and come to related
results. -/
inductive Agrees (related : α → β → Prop) : Program κ τ α → Program κ τ β → Prop
  | done
      {result : α}
      {other : β}
      (isRelated : related result other) :
      Agrees related (.done result) (.done other)
  | fire
      {event : Event τ}
      {next : Except MachineError Unit → Program κ τ α}
      {otherNext : Except MachineError Unit → Program κ τ β}
      (rest : ∀ answer, Agrees related (next answer) (otherNext answer)) :
      Agrees related (.fire event next) (.fire event otherNext)
  | look
      {next : View κ → Program κ τ α}
      {otherNext : View κ → Program κ τ β}
      (rest : ∀ view, Agrees related (next view) (otherNext view)) :
      Agrees related (.look next) (.look otherNext)
  | log
      {entry : Log.Entry}
      {next : Program κ τ α}
      {otherNext : Program κ τ β}
      (rest : Agrees related next otherNext) :
      Agrees related (.log entry next) (.log entry otherNext)

/-- A program agrees with itself. -/
theorem agrees_self (program : Program κ τ α) : program.Agrees Eq program := by
  induction program with
  | done result => exact .done rfl
  | fire event next inductionHypothesis => exact .fire inductionHypothesis
  | look next inductionHypothesis => exact .look inductionHypothesis
  | log entry next inductionHypothesis => exact .log inductionHypothesis

/-- Programs that agree still agree when the result of one is read in another way. -/
theorem Agrees.bind_done
    {γ : Type}
    {related : α → β → Prop}
    {relatedAfter : α → γ → Prop}
    {program : Program κ τ α}
    {other : Program κ τ β}
    (agrees : program.Agrees related other)
    (change : β → γ)
    (rest : ∀ result otherResult, related result otherResult →
      relatedAfter result (change otherResult)) :
    program.Agrees relatedAfter (other.bind fun result => .done (change result)) := by
  induction agrees with
  | done isRelated => exact .done (rest _ _ isRelated)
  | fire _ inductionHypothesis => exact .fire inductionHypothesis
  | look _ inductionHypothesis => exact .look inductionHypothesis
  | log _ inductionHypothesis => exact .log inductionHypothesis

/-- Programs that agree agree in less. -/
theorem Agrees.mono
    {related weaker : α → β → Prop}
    {program : Program κ τ α}
    {other : Program κ τ β}
    (agrees : program.Agrees related other)
    (weakens : ∀ result otherResult, related result otherResult → weaker result otherResult) :
    program.Agrees weaker other := by
  induction agrees with
  | done isRelated => exact .done (weakens _ _ isRelated)
  | fire _ inductionHypothesis => exact .fire inductionHypothesis
  | look _ inductionHypothesis => exact .look inductionHypothesis
  | log _ inductionHypothesis => exact .log inductionHypothesis

/-- A program queues nothing, and all that it can come to has a property. -/
def EndsQuietly (property : α → Prop) : Program κ τ α → Prop
  | .done result => property result
  | .fire _ _ => False
  | .look next => ∀ view, (next view).EndsQuietly property
  | .log _ next => next.EndsQuietly property

end Program

/-! ## Callbacks -/

section Callbacks

variable (seen : ω → σ)

/-- Wherever two callbacks see the same, they make the same requests, come to related results,
and leave behind what looks the same. -/
def Agree
    (related : α → β → Prop)
    (callback : Callback κ τ ω α)
    (other : Callback κ τ ω β) : Prop :=
  ∀ ⦃world otherWorld : ω⦄, seen world = seen otherWorld →
    (callback world).Agrees
      (fun result otherResult =>
        related result.1 otherResult.1 ∧ seen result.2 = seen otherResult.2)
      (other otherWorld)

/-- A callback does the same wherever it sees the same. -/
def GoesBy (callback : Callback κ τ ω α) : Prop :=
  Agree seen Eq callback callback

/-- A callback queues nothing, and its effects are not seen. -/
def IsUnseen (callback : Callback κ τ ω α) : Prop :=
  ∀ world, (callback world).EndsQuietly fun result => seen result.2 = seen world

variable {seen}

/-- Where everything is seen, every callback goes by it. -/
theorem goesBy_id (callback : Callback κ τ ω α) : GoesBy id callback := by
  rintro world _ rfl
  refine (callback world).agrees_self.mono ?_
  rintro result _ rfl
  exact ⟨rfl, rfl⟩

end Callbacks

/-- The guards and actions of a definition go by what is seen. -/
structure Definition.GoesBy
    [DecidableEq κ]
    (seen : ω → σ)
    (definition : Definition κ τ ω) : Prop where
  guard {entry : Entry κ τ ω} {guard : Guard κ τ ω} (payload : Payload) :
    entry ∈ definition.table.entries → entry.transition.guard = some guard →
      Statechart.GoesBy seen (guard.evaluate payload)
  action {entry : Entry κ τ ω} {action : Action κ τ ω} (payload : Payload) :
    entry ∈ definition.table.entries → action ∈ entry.transition.actions →
      Statechart.GoesBy seen (action.invoke payload)
  entry {state : Nat} {action : StateAction κ τ ω} :
    definition.entryAction? state = some action → Statechart.GoesBy seen action.invoke
  exit {state : Nat} {action : StateAction κ τ ω} :
    definition.exitAction? state = some action → Statechart.GoesBy seen action.invoke

/-- Where everything is seen, the guards and actions of every definition go by it. -/
theorem Definition.goesBy_id [DecidableEq κ] (definition : Definition κ τ ω) :
    definition.GoesBy id where
  guard _ _ _ := Statechart.goesBy_id _
  action _ _ _ := Statechart.goesBy_id _
  entry _ := Statechart.goesBy_id _
  exit _ := Statechart.goesBy_id _

/-! ## Observers -/

/-- What becomes of an observer: another one takes its place, or none does. -/
structure ObserverChange (κ τ ω : Type) where
  before : Observer κ τ ω
  after? : Option (Observer κ τ ω)

/-- The observer that does what another one does, but whose calls break off where they are
made to. -/
def Observer.breakingOff
    (observer : Observer κ τ ω)
    (breaks? : Notification κ τ → ω → Option Panic) : Observer κ τ ω :=
  fun notification world =>
    (observer notification world).bind fun result =>
      .done ((breaks? notification result.2).elim result.1 .panicked, result.2)

namespace ObserverChange

/-- The observers of a definition stay but for their outcomes, and those that are removed or
replaced by others are not seen. -/
inductive IsHarmless (seen : ω → σ) : ObserverChange κ τ ω → Prop
  /-- The two observers differ in their outcomes alone. -/
  | altered
      {before after : Observer κ τ ω}
      (agree : ∀ notification,
        Agree seen (fun _ _ => True) (before notification) (after notification)) :
      IsHarmless seen ⟨before, some after⟩
  /-- Neither of the two observers is seen. -/
  | exchanged
      {before after : Observer κ τ ω}
      (isUnseen : ∀ notification, IsUnseen seen (before notification))
      (isUnseenAfter : ∀ notification, IsUnseen seen (after notification)) :
      IsHarmless seen ⟨before, some after⟩
  /-- The observer that is removed is not seen. -/
  | removed
      {before : Observer κ τ ω}
      (isUnseen : ∀ notification, IsUnseen seen (before notification)) :
      IsHarmless seen ⟨before, none⟩

variable {seen : ω → σ} {observer : Observer κ τ ω}

/-- An observer that stays does no harm. -/
theorem isHarmless_kept (goesBy : ∀ notification, GoesBy seen (observer notification)) :
    IsHarmless seen ⟨observer, some observer⟩ :=
  .altered fun notification _ _ sameSight =>
    (goesBy notification sameSight).mono fun _ _ same => ⟨trivial, same.2⟩

/-- An observer that breaks off does no harm. -/
theorem isHarmless_breakingOff
    (goesBy : ∀ notification, GoesBy seen (observer notification))
    (breaks? : Notification κ τ → ω → Option Panic) :
    IsHarmless seen ⟨observer, some (observer.breakingOff breaks?)⟩ :=
  .altered fun notification _ _ sameSight =>
    (goesBy notification sameSight).bind_done _ fun _ _ same => ⟨trivial, same.2⟩

/-- The numbers of the observers that stay, counted from a given number on. -/
def stayingFrom : Nat → List (ObserverChange κ τ ω) → List Nat
  | _, [] => []
  | number, change :: changes =>
      match change.after? with
      | some _ => number :: stayingFrom (number + 1) changes
      | none => stayingFrom (number + 1) changes

/-- The numbers that the remaining observers had, in order. -/
def staying (changes : List (ObserverChange κ τ ω)) : List Nat :=
  stayingFrom 0 changes

theorem le_of_mem_stayingFrom
    {number other : Nat}
    {changes : List (ObserverChange κ τ ω)}
    (member : other ∈ stayingFrom number changes) :
    number ≤ other := by
  induction changes generalizing number with
  | nil => contradiction
  | cons change changes inductionHypothesis =>
      rw [stayingFrom] at member
      split at member
      · rcases List.mem_cons.mp member with rfl | later
        · exact Nat.le_refl _
        · exact Nat.le_of_succ_le (inductionHypothesis later)
      · exact Nat.le_of_succ_le (inductionHypothesis member)

end ObserverChange

namespace Definition

/-- The definition with changed observers. -/
def withChanges
    (definition : Definition κ τ ω)
    (changes : List (ObserverChange κ τ ω)) : Definition κ τ ω :=
  { definition with observers := changes.filterMap ObserverChange.after? }

/-- The observers of a definition can change without harm. -/
structure Bears
    [DecidableEq κ]
    (seen : ω → σ)
    (changes : List (ObserverChange κ τ ω))
    (definition : Definition κ τ ω) : Prop where
  observers_eq : definition.observers = changes.map ObserverChange.before
  goesBy : definition.GoesBy seen
  isHarmless : ∀ change ∈ changes, change.IsHarmless seen

end Definition
end Statechart
