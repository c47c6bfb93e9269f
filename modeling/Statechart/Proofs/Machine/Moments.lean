import Statechart.Proofs.Machine.Chronicle
import Statechart.Proofs.Machine.Parts

/-!
# Moments of a life

At every moment of a task its worker is in a certain part of it. An event is published once,
after its steps and before the reports, so the part decides whether the worker is shown as it
was before the event or as it is after it. The first configuration is published after it has
been entered, and the last one after everything has been left.
-/

namespace Statechart

variable {κ τ ω : Type}

/-! ## What is published -/

/-- An event is published once. -/
theorem Account.IsRight.filterMap_published
    [DecidableEq κ]
    [StateKey κ]
    [DecidableEq τ]
    [Inspect τ]
    {definition : Definition κ τ ω}
    {account : Account κ τ ω}
    (isRight : account.IsRight definition) :
    (account.deeds definition).filterMap Activity.published? =
      [(account.after definition).snapshot definition] := by
  have nothingEarly : (account.early definition).filterMap Activity.published? = [] :=
    List.filterMap_eq_nil_iff.mpr fun _ => isRight.published?_of_mem_early
  have nothingLate : (reporting definition.observers (account.context definition)
      (account.closing definition)).filterMap Activity.published? = [] :=
    List.filterMap_eq_nil_iff.mpr fun _ => published?_of_mem_reporting
  rw [deeds_eq_append, List.filterMap_append, List.filterMap_append, nothingEarly, nothingLate]
  rfl

namespace Work

/-! ## Every moment of an event -/

section Moments

variable [DecidableEq κ] [StateKey κ] [DecidableEq τ] [Inspect τ]

/-- How far a worker has come with an event by some deeds, with what is left of its work at the
event and what is shown meanwhile. -/
inductive Amid (definition : Definition κ τ ω) (worker : Worker κ) (event : Event τ) :
    List (Activity κ τ) → Work κ τ ω (Worker κ) → Snapshot κ → Prop
  /-- Observers are told that the event begins. -/
  | beginning
      {begun : List (Activity κ τ)}
      {rest : Work κ τ ω Unit}
      (leads : (tellBegin definition worker event).Leads begun rest) :
      Amid definition worker event begun
        (rest.bind fun _ => (select definition worker event).bind (goOn definition worker event))
        (worker.snapshot definition)
  /-- Guards are asked. -/
  | selecting
      {begun asked : List (Activity κ τ)}
      {rest : Work κ τ ω (Option (Entry κ τ ω) × List StepError)}
      (begins : (tellBegin definition worker event).Performs begun ())
      (leads : (select definition worker event).Leads asked rest) :
      Amid definition worker event (begun ++ asked) (rest.bind (goOn definition worker event))
        (worker.snapshot definition)
  /-- Exit actions, actions and entry actions run. -/
  | following
      {begun asked steps : List (Activity κ τ)}
      {entry : Entry κ τ ω}
      {faults : List StepError}
      {rest : Work κ τ ω (Option StepError × Configuration)}
      (begins : (tellBegin definition worker event).Performs begun ())
      (selects : (select definition worker event).Performs asked (some entry, faults))
      (leads : (execute definition entry event worker.configuration).Leads steps rest) :
      Amid definition worker event (begun ++ asked ++ steps)
        (rest.bind (conclude definition worker (contextOf definition worker event entry faults)))
        (worker.snapshot definition)
  /-- The event is counted, but has not been published. -/
  | counting
      {early : List (Activity κ τ)}
      {moved : Worker κ}
      {context : Context κ τ}
      {closing : Option (Notification κ τ)}
      {rest : Work κ τ ω (Worker κ)}
      (comes : (process definition worker event).Leads early
        ((finishEvent definition moved).bind (report definition context closing)))
      (unpublished : ∀ deed ∈ early, deed.published? = none)
      (leads : (finishEvent definition moved).Leads ([] : List (Activity κ τ)) rest) :
      Amid definition worker event early (rest.bind (report definition context closing))
        (worker.snapshot definition)
  /-- The event has been published, and its failures are reported. -/
  | reporting
      {early reports : List (Activity κ τ)}
      {after : Worker κ}
      {context : Context κ τ}
      {closing : Option (Notification κ τ)}
      {rest : Work κ τ ω Unit}
      (comes : (process definition worker event).Leads
        (early ++ [.published (after.snapshot definition)])
        (report definition context closing after))
      (unpublished : ∀ deed ∈ early, deed.published? = none)
      (leads : (reportErrors definition context).Leads reports rest) :
      Amid definition worker event (early ++ [.published (after.snapshot definition)] ++ reports)
        (rest.bind fun _ => tellEnd definition after closing) (after.snapshot definition)
  /-- Observers are told how the event ended. -/
  | ending
      {early reports told : List (Activity κ τ)}
      {after : Worker κ}
      {context : Context κ τ}
      {closing : Notification κ τ}
      {rest : Work κ τ ω Unit}
      (comes : (process definition worker event).Leads
        (early ++ [.published (after.snapshot definition)])
        (report definition context (some closing) after))
      (unpublished : ∀ deed ∈ early, deed.published? = none)
      (isClosing : IsClosing context (some closing))
      (reported : (reportErrors definition context).Performs reports ())
      (leads : (notify definition.observers closing).Leads told rest) :
      Amid definition worker event
        (early ++ [.published (after.snapshot definition)] ++ reports ++ told)
        (rest.bind fun _ => .done after) (after.snapshot definition)

variable
  {definition : Definition κ τ ω}
  {worker : Worker κ}
  {event : Event τ}

/-- Reporting an event that has been published passes through its last moments. -/
theorem exists_amid_of_reporting
    {early later : List (Activity κ τ)}
    {after : Worker κ}
    {context : Context κ τ}
    {closing : Option (Notification κ τ)}
    {work : Work κ τ ω (Worker κ)}
    (comes : (process definition worker event).Leads
      (early ++ [.published (after.snapshot definition)])
      (report definition context closing after))
    (unpublished : ∀ deed ∈ early, deed.published? = none)
    (isClosing : IsClosing context closing)
    (leads : (report definition context closing after).Leads later work) :
    Amid definition worker event (early ++ [.published (after.snapshot definition)] ++ later) work
      (after.snapshot definition) := by
  rcases leads.of_bind with ⟨rest, within, rfl⟩ | ⟨_, reports, others, rfl, reported, leads⟩
  · exact .reporting comes unpublished within
  · cases closing with
    | none =>
        cases leads
        rw [List.append_nil]
        exact .reporting comes unpublished reported
    | some closing =>
        rw [← List.append_assoc]
        rcases leads.of_bind with ⟨rest, within, rfl⟩ | ⟨_, told, _, rfl, tells, leads⟩
        · exact .ending comes unpublished isClosing reported within
        · cases leads
          rw [List.append_nil]
          exact .ending comes unpublished isClosing reported tells

/-- Counting an event and reporting it passes through its last moments. -/
theorem exists_amid_of_counting
    {early later : List (Activity κ τ)}
    {moved : Worker κ}
    {context : Context κ τ}
    {closing : Option (Notification κ τ)}
    {work : Work κ τ ω (Worker κ)}
    (comes : (process definition worker event).Leads early
      ((finishEvent definition moved).bind (report definition context closing)))
    (unpublished : ∀ deed ∈ early, deed.published? = none)
    (isClosing : IsClosing context closing)
    (leads : ((finishEvent definition moved).bind (report definition context closing)).Leads later
      work) :
    ∃ shown, Amid definition worker event (early ++ later) work shown := by
  have counting
      {rest : Work κ τ ω (Worker κ)}
      (leads : (finishEvent definition moved).Leads ([] : List (Activity κ τ)) rest) :
      Amid definition worker event (early ++ []) (rest.bind (report definition context closing))
        (worker.snapshot definition) := by
    rw [List.append_nil]
    exact .counting comes unpublished leads
  cases leads with
  | refl => exact ⟨_, counting (.refl _)⟩
  | read session leads =>
      cases leads with
      | refl => exact ⟨_, counting (.read session (.refl _))⟩
      | publish leads =>
          rw [List.append_cons]
          exact ⟨_, exists_amid_of_reporting (comes.trans (.read session (.publish (.refl _))))
            unpublished isClosing leads⟩

/-- At every moment of an event its worker is in one of the parts. -/
theorem exists_amid
    {deeds : List (Activity κ τ)}
    {work : Work κ τ ω (Worker κ)}
    (leads : (process definition worker event).Leads deeds work) :
    ∃ shown, Amid definition worker event deeds work shown := by
  have begins_eq := process_eq definition worker event
  rw [begins_eq] at leads
  rcases leads.of_bind with ⟨rest, within, rfl⟩ | ⟨_, begun, later, rfl, begins, leads⟩
  · exact ⟨_, .beginning within⟩
  rcases leads.of_bind with ⟨rest, within, rfl⟩ | ⟨⟨chosen, faults⟩, asked, later, rfl, selects,
    leads⟩
  · exact ⟨_, .selecting begins within⟩
  rw [← List.append_assoc]
  have selected : (process definition worker event).Leads (begun ++ asked)
      (goOn definition worker event (chosen, faults)) := by
    rw [begins_eq]
    exact (begins.bind _).trans (selects.bind _)
  have quiet : ∀ deed ∈ begun ++ asked, deed.published? = none :=
    List.forall_mem_append.mpr ⟨(isPlain_notify _ _).unpublished begins,
      (isPlain_choose _ _ _).unpublished selects⟩
  cases chosen with
  | none => exact exists_amid_of_counting selected quiet .declined leads
  | some entry =>
      rcases leads.of_bind with ⟨rest, within, rfl⟩ | ⟨⟨failure, configuration⟩, steps, later, rfl,
        executes, leads⟩
      · exact ⟨_, .following begins selects within⟩
      rw [← List.append_assoc]
      have executed := selected.trans (executes.bind _)
      have stillQuiet : ∀ deed ∈ begun ++ asked ++ steps, deed.published? = none :=
        List.forall_mem_append.mpr ⟨quiet, (isPlain_execute _ _ _ _).unpublished executes⟩
      cases failure with
      | some error => exact exists_amid_of_counting executed stillQuiet .failed leads
      | none =>
          cases leads with
          | refl =>
              rw [List.append_nil]
              exact ⟨_, .following begins selects executes⟩
          | read session leads =>
              have recorded := executed.trans (.read session (.refl _))
              rw [List.append_nil] at recorded
              exact exists_amid_of_counting recorded stillQuiet (.completed _ _) leads

namespace Amid

variable {deeds : List (Activity κ τ)} {work : Work κ τ ω (Worker κ)} {shown : Snapshot κ}

/-- Processing the event leads to each of its moments. -/
theorem leads (amid : Amid definition worker event deeds work shown) :
    (process definition worker event).Leads deeds work := by
  have begins_eq := process_eq definition worker event
  cases amid with
  | beginning leads =>
      rw [begins_eq]
      exact leads.bind _
  | selecting begins leads =>
      rw [begins_eq]
      exact (begins.bind _).trans (leads.bind _)
  | following begins selects leads =>
      rw [begins_eq, List.append_assoc]
      exact (begins.bind _).trans ((selects.bind _).trans (leads.bind _))
  | counting comes _ leads =>
      have counts := comes.trans (leads.bind _)
      rwa [List.append_nil] at counts
  | reporting comes _ leads => exact comes.trans (leads.bind _)
  | ending comes _ _ reported leads =>
      rw [List.append_assoc]
      exact comes.trans ((reported.bind _).trans (leads.bind _))

/-- What is shown was published last. -/
theorem shown_eq (amid : Amid definition worker event deeds work shown) :
    shown = Session.shownAfter (worker.snapshot definition) deeds := by
  symm
  cases amid with
  | beginning leads =>
      exact Session.shownAfter_eq_self ((isPlain_notify _ _).unpublished leads) _
  | selecting begins leads =>
      exact Session.shownAfter_eq_self (List.forall_mem_append.mpr
        ⟨(isPlain_notify _ _).unpublished begins, (isPlain_choose _ _ _).unpublished leads⟩) _
  | following begins selects leads =>
      exact Session.shownAfter_eq_self (List.forall_mem_append.mpr
        ⟨List.forall_mem_append.mpr ⟨(isPlain_notify _ _).unpublished begins,
          (isPlain_choose _ _ _).unpublished selects⟩,
        (isPlain_execute _ _ _ _).unpublished leads⟩) _
  | counting _ unpublished _ => exact Session.shownAfter_eq_self unpublished _
  | reporting _ _ leads =>
      rw [Session.shownAfter_append, Session.shownAfter_append]
      exact Session.shownAfter_eq_self ((isPlain_reportErrors _ _).unpublished leads) _
  | ending _ _ _ reported leads =>
      rw [Session.shownAfter_append, Session.shownAfter_append, Session.shownAfter_append,
        Session.shownAfter_eq_self ((isPlain_reportErrors _ _).unpublished reported)]
      exact Session.shownAfter_eq_self ((isPlain_notify _ _).unpublished leads) _

/-- At every moment of an event the worker is shown as before the event, where nothing has been
published since, or as after it, where the event has been published. -/
theorem exists_account
    (session : Session κ τ ω)
    (forest : definition.graph.IsForest)
    (fits : definition.table.Fits definition.graph)
    (amid : Amid definition worker event deeds work shown) :
    ∃ account : Account κ τ ω, account.IsRight definition ∧ account.before = worker ∧
      account.event = event ∧ deeds <+: account.deeds definition ∧
        ((∀ deed ∈ deeds, deed.published? = none) ∧ shown = worker.snapshot definition ∨
          (∃ deed ∈ deeds, deed.published? ≠ none) ∧
            shown = (account.after definition).snapshot definition) := by
  obtain ⟨rest, _, performs⟩ := amid.leads.exists_performs session
  obtain ⟨account, isRight, event_eq, before_eq, deeds_eq, _⟩ :=
    exists_account_of_performs_process forest fits performs
  have onTheWay : deeds <+: account.deeds definition := ⟨rest, deeds_eq.symm⟩
  refine ⟨account, isRight, before_eq, event_eq, onTheWay, ?_⟩
  rw [amid.shown_eq]
  exact isRight.shownAfter_of_isPrefix onTheWay _

/-- Whichever way a worker has come to a moment of an event, the same is shown. -/
theorem shown_unique
    (session : Session κ τ ω)
    (forest : definition.graph.IsForest)
    (fits : definition.table.Fits definition.graph)
    {others : List (Activity κ τ)}
    {other : Snapshot κ}
    (first : Amid definition worker event deeds work shown)
    (second : Amid definition worker event others work other) :
    shown = other := by
  obtain ⟨rest, performs, _⟩ := work.performs_run session
  -- Whatever the worker has come by, the rest of its work has the same publications ahead.
  have published
      {deeds : List (Activity κ τ)}
      {shown : Snapshot κ}
      (amid : Amid definition worker event deeds work shown) :
      deeds.filterMap Activity.published? ++ rest.filterMap Activity.published? =
        [(work.run session).1.snapshot definition] := by
    obtain ⟨account, isRight, _, _, deeds_eq, after_eq, _⟩ :=
      exists_account_of_performs_process forest fits (amid.leads.trans performs)
    rw [← List.filterMap_append, ← deeds_eq, ← after_eq]
    exact isRight.filterMap_published
  rw [first.shown_eq, second.shown_eq, Session.shownAfter_eq_getLastD,
    Session.shownAfter_eq_getLastD,
    List.append_cancel_right ((published first).trans (published second).symm)]

end Amid
end Moments
end Work

/-! ## Every moment of a life -/

section Life

variable [DecidableEq κ] [StateKey κ] [DecidableEq τ] [Inspect τ]

/-- How far a worker has come in its life, and what is shown meanwhile. Before it has opened
something blank is shown. -/
inductive Moment
    (definition : Definition κ τ ω)
    (opening : Work κ τ ω (Worker κ))
    (blank : Snapshot κ) :
    Option (Worker κ) → Option (Task τ × Work κ τ ω (Worker κ)) → Chronicle κ τ ω →
      Snapshot κ → Prop
  /-- It enters or restores its first configuration. -/
  | opening
      {opened : List (Activity κ τ)}
      {rest : Work κ τ ω (Worker κ)}
      (leads : opening.Leads opened rest) :
      Moment definition opening blank none
        (some (.opening, Work.thenPublish definition rest)) ⟨opened, [], []⟩ blank
  /-- It has been published for the first time. -/
  | opened
      {opened : List (Activity κ τ)}
      {first : Worker κ}
      (opens : (Work.thenPublish definition opening).Performs opened first) :
      Moment definition opening blank none (some (.opening, .done first)) ⟨opened, [], []⟩
        (first.snapshot definition)
  /-- It waits for its next task. -/
  | idle
      {opened : List (Activity κ τ)}
      {first worker : Worker κ}
      {accounts : List (Account κ τ ω)}
      (opens : (Work.thenPublish definition opening).Performs opened first)
      (handles : Handles definition first accounts worker) :
      Moment definition opening blank (some worker) none ⟨opened, accounts, []⟩
        (worker.snapshot definition)
  /-- It processes an event. -/
  | event
      {opened deeds : List (Activity κ τ)}
      {first worker : Worker κ}
      {accounts : List (Account κ τ ω)}
      {event : Event τ}
      {work : Work κ τ ω (Worker κ)}
      {shown : Snapshot κ}
      (opens : (Work.thenPublish definition opening).Performs opened first)
      (handles : Handles definition first accounts worker)
      (amid : Work.Amid definition worker event deeds work shown) :
      Moment definition opening blank (some worker) (some (.event event, work))
        ⟨opened, accounts, .began event :: deeds⟩ shown
  /-- Exit actions run at the end, and observers are told of those that fail. -/
  | leaving
      {opened deeds : List (Activity κ τ)}
      {first worker : Worker κ}
      {accounts : List (Account κ τ ω)}
      {rest : Work κ τ ω (Worker κ)}
      (opens : (Work.thenPublish definition opening).Performs opened first)
      (handles : Handles definition first accounts worker)
      (leads : (Work.leaveAll definition
        (Plan.shutdown definition.graph worker.configuration) worker).Leads deeds rest) :
      Moment definition opening blank (some worker)
        (some (.closing, (Work.thenPublish definition rest).bind Work.noteEnd))
        ⟨opened, accounts, deeds⟩ (worker.snapshot definition)
  /-- It has been published for the last time. -/
  | left
      {opened deeds later : List (Activity κ τ)}
      {first worker left : Worker κ}
      {accounts : List (Account κ τ ω)}
      {work : Work κ τ ω (Worker κ)}
      (opens : (Work.thenPublish definition opening).Performs opened first)
      (handles : Handles definition first accounts worker)
      (leaves : (Work.thenPublish definition (Work.leaveAll definition
        (Plan.shutdown definition.graph worker.configuration) worker)).Performs deeds left)
      (leads : (Work.noteEnd left).Leads later work) :
      Moment definition opening blank (some worker) (some (.closing, work))
        ⟨opened, accounts, deeds ++ later⟩ (left.snapshot definition)
  /-- It has come to its end. -/
  | ended
      {opened deeds : List (Activity κ τ)}
      {first worker left : Worker κ}
      {accounts : List (Account κ τ ω)}
      (opens : (Work.thenPublish definition opening).Performs opened first)
      (handles : Handles definition first accounts worker)
      (leaves : (Work.shutdown definition worker).Performs deeds left) :
      Moment definition opening blank none none ⟨opened, accounts, deeds⟩
        (left.snapshot definition)

variable
  {definition : Definition κ τ ω}
  {opening : Work κ τ ω (Worker κ)}
  {worker : Option (Worker κ)}
  {hand : Option (Task τ × Work κ τ ω (Worker κ))}
  {chronicle : Chronicle κ τ ω}

/-- At every stage of its life a worker is at some moment. -/
theorem Stage.exists_moment
    {told : Bool}
    (stage : Stage definition (Work.thenPublish definition opening) told worker hand chronicle)
    (blank : Snapshot κ) :
    ∃ shown, Moment definition opening blank worker hand chronicle shown := by
  cases stage with
  | opening leads =>
      rcases Work.of_leads_thenPublish leads with ⟨rest, within, rfl⟩ | ⟨first, performs, rfl⟩
      · exact ⟨_, .opening within⟩
      · exact ⟨_, .opened performs⟩
  | idle opens handles => exact ⟨_, .idle opens handles⟩
  | event opens handles leads =>
      obtain ⟨shown, amid⟩ := Work.exists_amid leads
      exact ⟨shown, .event opens handles amid⟩
  | closing opens handles leads =>
      rw [Work.shutdown_eq] at leads
      rcases leads.of_bind with
        ⟨publishing, within, rfl⟩ | ⟨left, published, later, rfl, leaves, ends⟩
      · rcases Work.of_leads_thenPublish within with ⟨rest, leaving, rfl⟩ | ⟨left, leaves, rfl⟩
        · exact ⟨_, .leaving opens handles leaving⟩
        · have justLeft : Moment definition opening blank _ _ _ _ :=
            .left opens handles leaves (.refl _)
          rw [List.append_nil] at justLeft
          exact ⟨_, justLeft⟩
      · exact ⟨_, .left opens handles leaves ends⟩
  | ended opens handles performs => exact ⟨_, .ended opens handles performs⟩

omit [DecidableEq κ] [StateKey κ] [DecidableEq τ] [Inspect τ] in
/-- A worker that has been published at the end of some work is shown. -/
theorem Work.shownAfter_of_performs_thenPublish
    {work : Work κ τ ω (Worker κ)}
    {deeds : List (Activity κ τ)}
    {after : Worker κ}
    (performs : (thenPublish definition work).Performs deeds after)
    (shown : Snapshot κ) :
    Session.shownAfter shown deeds = after.snapshot definition := by
  obtain ⟨_, rfl, _⟩ := performs_thenPublish performs
  rw [Session.shownAfter_append]
  rfl

/-- What is shown was published last, where something blank was shown at first. -/
theorem Moment.shown_eq
    {blank shown : Snapshot κ}
    (isPlain : opening.IsPlain)
    (moment : Moment definition opening blank worker hand chronicle shown) :
    shown = Session.shownAfter blank (chronicle.deeds definition) := by
  have before
      {opened : List (Activity κ τ)}
      {first worker : Worker κ}
      {accounts : List (Account κ τ ω)}
      (opens : (Work.thenPublish definition opening).Performs opened first)
      (handles : Handles definition first accounts worker) :
      Session.shownAfter blank (opened ++ accounts.flatMap (Account.chapter definition)) =
        worker.snapshot definition := by
    rw [Session.shownAfter_append, Work.shownAfter_of_performs_thenPublish opens,
      handles.shownAfter_eq]
  symm
  cases moment with
  | opening leads =>
      rw [Chronicle.deeds, List.flatMap_nil, List.append_nil, List.append_nil]
      exact Session.shownAfter_eq_self (isPlain.unpublished leads) blank
  | opened opens =>
      rw [Chronicle.deeds, List.append_nil]
      exact before opens .nothing
  | idle opens handles =>
      rw [Chronicle.deeds, List.append_nil]
      exact before opens handles
  | event opens handles amid =>
      rw [Chronicle.deeds, Session.shownAfter_append, before opens handles, amid.shown_eq]
      rfl
  | leaving opens handles leads =>
      rw [Chronicle.deeds, Session.shownAfter_append, before opens handles]
      exact Session.shownAfter_eq_self ((Work.isPlain_leaveAll _ _ _).unpublished leads) _
  | left opens handles leaves leads =>
      rw [Chronicle.deeds, Session.shownAfter_append, Session.shownAfter_append,
        Work.shownAfter_of_performs_thenPublish leaves]
      exact Session.shownAfter_eq_self ((Work.isPlain_noteEnd _).unpublished leads) _
  | ended opens handles leaves =>
      obtain ⟨_, _, _, _, rfl, _⟩ := Work.performs_shutdown leaves
      rw [Chronicle.deeds, Session.shownAfter_append, Session.shownAfter_append]
      rfl

end Life
end Statechart
