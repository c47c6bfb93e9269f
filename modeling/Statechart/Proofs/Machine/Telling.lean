import Statechart.Proofs.Machine.Regularity
import Statechart.Proofs.Machine.Unfolding

/-!
# What observers are told in the course of time

Whoever fires events, and whenever the worker and the callers get their turns, observers
are told of one event after the other, and of each of them in the regular way. Nothing that
an observer hears of one event comes between what it hears of another. What failed at the
start is told before the first event, and what fails at the end after the last one.
-/

namespace Statechart

variable {κ τ ω : Type}

section Courses

variable [DecidableEq κ] [StateKey κ] [DecidableEq τ] [Inspect τ]

/-- Events are told one after the other. -/
structure Chronicle.IsRegular
    (definition : Definition κ τ ω)
    (blank : Snapshot κ)
    (chronicle : Chronicle κ τ ω) : Prop where
  /-- Before the first event observers only hear of failures at the start. -/
  opened : ∀ deed ∈ chronicle.opened, deed.IsApart .start
  /-- Each event is processed and told as it should be, with the snapshot that was shown when
  it began. -/
  accounts {earlier later : List (Account κ τ ω)} {account : Account κ τ ω} :
    chronicle.accounts = earlier ++ account :: later →
      account.IsRegular definition
        (Session.shownAfter blank
          (chronicle.opened ++ earlier.flatMap (Account.chapter definition)))
  /-- After that observers hear of failures at the end, or the worker is on its way through
  another event. -/
  current :
    (∀ deed ∈ chronicle.current, deed.IsApart .stop) ∨
      ∃ account : Account κ τ ω,
        account.IsRegular definition
            (Session.shownAfter blank
              (chronicle.opened ++ chronicle.accounts.flatMap (Account.chapter definition))) ∧
          chronicle.current <+: account.chapter definition

/-- Something holds of each event and of the snapshot that was shown when it began. A machine
had shown a blank snapshot at first. -/
structure Chronicle.EachEvent
    (definition : Definition κ τ ω)
    (blank : Snapshot κ)
    (holds : Snapshot κ → Account κ τ ω → Prop)
    (chronicle : Chronicle κ τ ω) : Prop where
  /-- It holds of the events that were processed to their ends. -/
  accounts {earlier later : List (Account κ τ ω)} {account : Account κ τ ω} :
    chronicle.accounts = earlier ++ account :: later →
      holds
        (Session.shownAfter blank
          (chronicle.opened ++ earlier.flatMap (Account.chapter definition)))
        account
  /-- After that the worker leaves everything, or it is on its way through another event, of
  which it holds too. -/
  current :
    (∀ deed ∈ chronicle.current, deed.IsApart .stop) ∨
      ∃ account : Account κ τ ω,
        holds
            (Session.shownAfter blank
              (chronicle.opened ++ chronicle.accounts.flatMap (Account.chapter definition)))
            account ∧
          chronicle.current <+: account.chapter definition

/-- What holds of every right account after a life so far holds of each event. -/
theorem Stage.eachEvent
    {definition : Definition κ τ ω}
    (forest : definition.graph.IsForest)
    (fits : definition.table.Fits definition.graph)
    {opening : Work κ τ ω (Worker κ)}
    {base : UInt64}
    (opens : opening.Opens definition base)
    {told : Bool}
    {remaining : Option (Worker κ)}
    {hand : Option (Task τ × Work κ τ ω (Worker κ))}
    {chronicle : Chronicle κ τ ω}
    (stage : Stage definition opening told remaining hand chronicle)
    (session : Session κ τ ω)
    (blank : Snapshot κ)
    {holds : Snapshot κ → Account κ τ ω → Prop}
    (every : ∀ {opened : List (Activity κ τ)} {accounts : List (Account κ τ ω)}
      {first : Worker κ} {account : Account κ τ ω}, opening.Performs opened first →
        Handles definition first accounts account.before → account.IsRight definition →
          holds (account.before.snapshot definition) account) :
    chronicle.EachEvent definition blank holds := by
  have shown_eq
      {opened : List (Activity κ τ)}
      {accounts : List (Account κ τ ω)}
      {first worker : Worker κ}
      (opened_by : opening.Performs opened first)
      (handles : Handles definition first accounts worker) :
      Session.shownAfter blank (opened ++ accounts.flatMap (Account.chapter definition)) =
        worker.snapshot definition := by
    rw [Session.shownAfter_append, opens.shownAfter_eq opened_by, handles.shownAfter_eq]
  constructor
  · intro earlier later account split
    obtain ⟨first, opened_by, handles, isRight, _⟩ := stage.of_split split
    rw [shown_eq opened_by handles]
    exact every opened_by handles isRight
  · cases stage with
    | opening _ => exact .inl (by simp)
    | idle _ _ => exact .inl (by simp)
    | event opened_by handles leads =>
        obtain ⟨rest, after, performs⟩ := leads.exists_performs session
        obtain ⟨account, isRight, rfl, rfl, deeds_eq, _⟩ :=
          Work.exists_account_of_performs_process forest fits performs
        refine .inr ⟨account, ?_, ?_⟩
        · rw [shown_eq opened_by handles]
          exact every opened_by handles isRight
        · rw [Account.chapter, deeds_eq]
          exact ⟨rest, rfl⟩
    | closing opened_by handles leads =>
        obtain ⟨rest, left, performs⟩ := leads.exists_performs session
        exact .inl fun deed member =>
          Work.isApart_of_performs_shutdown performs deed (List.mem_append_left rest member)
    | ended opened_by handles performs => exact .inl (Work.isApart_of_performs_shutdown performs)

/-- A worker that has come to a stage tells one event after the other. -/
theorem Stage.isRegular
    {definition : Definition κ τ ω}
    (forest : definition.graph.IsForest)
    (fits : definition.table.Fits definition.graph)
    {opening : Work κ τ ω (Worker κ)}
    {base : UInt64}
    (opens : opening.Opens definition base)
    {told : Bool}
    {remaining : Option (Worker κ)}
    {hand : Option (Task τ × Work κ τ ω (Worker κ))}
    {chronicle : Chronicle κ τ ω}
    (stage : Stage definition opening told remaining hand chronicle)
    (session : Session κ τ ω)
    (blank : Snapshot κ) :
    chronicle.IsRegular definition blank := by
  have each := stage.eachEvent forest fits opens session blank
    fun _ _ isRight => isRight.isRegular forest fits
  refine ⟨?_, each.accounts, each.current⟩
  cases stage with
  | opening leads =>
      obtain ⟨rest, first, performs⟩ := leads.exists_performs session
      exact fun deed member => opens.apart performs deed (List.mem_append_left rest member)
  | idle opened_by _ => exact opens.apart opened_by
  | event opened_by _ _ => exact opens.apart opened_by
  | closing opened_by _ _ => exact opens.apart opened_by
  | ended opened_by _ _ => exact opens.apart opened_by

namespace Course

variable {definition : Definition κ τ ω}

/-- Whatever happens in the course of time, observers are told of one event after the other,
and of each of them as it should be. -/
theorem isTold
    {draft : MachineDraft κ τ ω}
    (built : draft.build = .ok definition) :
    (∀ run : Run definition, ∃ course : Course definition,
      course.beginning = run.beginning ∧ course.scene = run.machine.scene) ∧
      ∀ course : Course definition, ∃ chronicle : Chronicle κ τ ω,
        course.scene.machine.session.deeds = chronicle.deeds definition ∧
          course.scene.machine.snapshot =
            Session.shownAfter course.blank (chronicle.deeds definition) ∧
          chronicle.IsRegular definition course.blank := by
  have forest := (Definition.isWellFormed_of_build built).forest
  have fits := Definition.fits_of_build built
  refine ⟨fun run => run.exists_course, fun course => ?_⟩
  obtain ⟨opening, chronicle, opens, unfolds⟩ := course.exists_unfolds built
  refine ⟨chronicle, unfolds.deeds_eq, ?_,
    unfolds.stage.isRegular forest fits opens course.scene.machine.session course.blank⟩
  rw [← unfolds.deeds_eq]
  exact unfolds.shown_eq

end Course
end Courses

/-! ## An example -/

namespace Course

open Run (crossing crossingDraft midnight)

/-- A machine with an observer. The guard of one transition breaks off, and so does the exit
action of one state. -/
def heardDraft : MachineDraft String String Unit :=
  let broken : Transition String String Unit :=
    { Transition.internal "red" "cross" with
      guard := some (.ignoring fun world => .done (.panicked .unknown, world)) }
  { crossingDraft ["loud"] with
    transitions := broken :: (crossingDraft ["loud"]).transitions
    observers := [silentObserver] }

/-- What the draft describes. -/
def heard : Definition String String Unit :=
  { crossing ["loud"] with
    table := ⟨heardDraft.transitions.filterMap fun transition =>
      (Table.entryOf (crossing ["loud"]).graph transition).toOption⟩
    observers := heardDraft.observers }

/-- A course with three events that are fired before the worker has opened. -/
def hearing : Course heard where
  clock := midnight
  world := ()
  beginning := .start
  first :=
    let machine := Machine.new heard midnight ()
    Scene.launched machine 0 (Work.enterInitial heard machine.freshWorker)
  accepted := rfl
  moves :=
    .operation (.fire (.new .nil "cross")) :: .operation (.fire (.new .nil "cross")) ::
      .operation (.fire (.new .nil "wait")) :: List.replicate 60 (.operation .advance)

/-- The observer hears of a completed event, of one that fails in a step, and of one that is
declined. -/
theorem isTold_hearing :
    heardDraft.build = .ok heard ∧
      (received 0 hearing.scene.machine.session.deeds).map Notification.kind =
        ["begin", "exception", "completed", "begin", "exception", "exception", "begin",
          "declined"] ∧
      ∃ chronicle : Chronicle String String Unit,
        hearing.scene.machine.session.deeds = chronicle.deeds heard ∧
          hearing.scene.machine.snapshot =
            Session.shownAfter hearing.blank (chronicle.deeds heard) ∧
          chronicle.IsRegular heard hearing.blank := by
  have built : heardDraft.build = .ok heard := by cbv
  exact ⟨built, by cbv, (isTold built).2 hearing⟩

end Course
end Statechart
