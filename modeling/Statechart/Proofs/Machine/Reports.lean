import Statechart.Proofs.Machine.Order
import Statechart.Proofs.Machine.Sights

/-!
# What a worker publishes

A worker publishes a snapshot when it has opened, one for each event that it counts, and one
at its end. Read from the front, the journal tells with each snapshot whether a transition was
selected since the last one, and whether a step has failed.
-/

namespace Statechart

variable {κ τ ω : Type}

/-! ## Reports -/

namespace Activity

/-- A transition was selected. -/
def isSelection : Activity κ τ → Bool
  | .selected _ => true
  | _ => false

/-- A step has failed. -/
def isStepFailure : Activity κ τ → Bool
  | .failed _ _ => true
  | _ => false

end Activity

/-- What is known about a snapshot when it is published. -/
structure Report (κ : Type) where
  /-- Whether a transition was selected since the last snapshot. -/
  isSelected : Bool
  /-- Whether a step has failed since the last snapshot. -/
  isFailed : Bool
  /-- The snapshot. -/
  shown : Snapshot κ
  deriving DecidableEq

namespace Report

/-- A transition was selected, and none of its steps has failed. -/
def isCompleted (report : Report κ) : Bool :=
  report.isSelected && !report.isFailed

end Report

/-- The snapshots that are published in some activities, where it is known what has happened
since the last one. -/
def reportsFrom (isSelected isFailed : Bool) : List (Activity κ τ) → List (Report κ)
  | [] => []
  | activity :: later =>
      match activity.published? with
      | some shown => ⟨isSelected, isFailed, shown⟩ :: reportsFrom false false later
      | none =>
          reportsFrom (isSelected || activity.isSelection) (isFailed || activity.isStepFailure)
            later

/-- The snapshots that are published in some activities. -/
def reports (activities : List (Activity κ τ)) : List (Report κ) :=
  reportsFrom false false activities

/-- Before the next snapshot is published its report comes about. -/
theorem reportsFrom_append
    {earlier : List (Activity κ τ)}
    (unpublished : ∀ activity ∈ earlier, activity.published? = none)
    (isSelected isFailed : Bool)
    (later : List (Activity κ τ)) :
    reportsFrom isSelected isFailed (earlier ++ later) =
      reportsFrom (isSelected || earlier.any Activity.isSelection)
        (isFailed || earlier.any Activity.isStepFailure) later := by
  induction earlier generalizing isSelected isFailed with
  | nil => simp
  | cons activity earlier inductionHypothesis =>
      rw [List.cons_append, reportsFrom, unpublished activity List.mem_cons_self]
      simp only
      rw [inductionHypothesis fun other member => unpublished other (List.mem_cons_of_mem _ member)]
      simp [Bool.or_assoc]

/-- Where nothing is published there are no reports. -/
theorem reports_eq_nil
    {activities : List (Activity κ τ)}
    (unpublished : ∀ activity ∈ activities, activity.published? = none) :
    reports activities = [] := by
  have none := reportsFrom_append unpublished false false []
  rw [List.append_nil] at none
  exact none

/-- A snapshot is reported with what has happened before. -/
theorem reports_append_published
    {earlier : List (Activity κ τ)}
    (unpublished : ∀ activity ∈ earlier, activity.published? = none)
    (shown : Snapshot κ)
    (later : List (Activity κ τ)) :
    reports (earlier ++ .published shown :: later) =
      ⟨earlier.any Activity.isSelection, earlier.any Activity.isStepFailure, shown⟩ ::
        reports later := by
  rw [reports, reportsFrom_append unpublished, Bool.false_or, Bool.false_or]
  rfl

/-- What is neither published nor selected nor a failure of a step is in no report. -/
theorem reports_append_of_quiet
    {earlier : List (Activity κ τ)}
    (unpublished : ∀ activity ∈ earlier, activity.published? = none)
    (unselected : earlier.any Activity.isSelection = false)
    (unfailed : earlier.any Activity.isStepFailure = false)
    (later : List (Activity κ τ)) :
    reports (earlier ++ later) = reports later := by
  rw [reports, reportsFrom_append unpublished, unselected, unfailed]
  rfl

/-- The reports list everything that is published. -/
theorem map_shown_reports (activities : List (Activity κ τ)) :
    (reports activities).map Report.shown = activities.filterMap Activity.published? := by
  have general (isSelected isFailed : Bool) :
      (reportsFrom isSelected isFailed activities).map Report.shown =
        activities.filterMap Activity.published? := by
    induction activities generalizing isSelected isFailed with
    | nil => rfl
    | cons activity activities inductionHypothesis =>
        rw [reportsFrom]
        cases published : activity.published? with
        | some shown => simp [published, inductionHypothesis]
        | none => simp [published, inductionHypothesis]
  exact general false false

/-- Everything that the machine of a course has published. -/
def Course.reports
    [DecidableEq κ]
    [StateKey κ]
    [DecidableEq τ]
    [Inspect τ]
    {definition : Definition κ τ ω}
    (course : Course definition) : List (Report κ) :=
  Statechart.reports course.scene.machine.session.deeds

/-- What is known about the snapshot after an event. -/
def Account.report
    [Inspect τ]
    (definition : Definition κ τ ω)
    (account : Account κ τ ω) : Report κ :=
  ⟨account.chosen.isSome, account.failure.isSome, (account.after definition).snapshot definition⟩

/-- What is known about the first snapshot of a worker, before which a step may have failed. -/
def Worker.report
    (definition : Definition κ τ ω)
    (worker : Worker κ)
    (isFailed : Bool) : Report κ :=
  ⟨false, isFailed, worker.snapshot definition⟩

/-! ## The reports of an event -/

section Events

variable
  [DecidableEq κ]
  [StateKey κ]
  [DecidableEq τ]
  [Inspect τ]
  {definition : Definition κ τ ω}

omit [DecidableEq κ] [StateKey κ] [DecidableEq τ] [Inspect τ] in
/-- Telling observers is neither a selection nor a failure of a step. -/
theorem any_told (observers : List (Observer κ τ ω)) (notification : Notification κ τ) :
    (told observers notification).any Activity.isSelection = false ∧
      (told observers notification).any Activity.isStepFailure = false := by
  simp [told, Activity.isSelection, Activity.isStepFailure]

omit [DecidableEq κ] [StateKey κ] [DecidableEq τ] [Inspect τ] in
/-- Reporting to observers is neither a selection nor a failure of a step. -/
theorem any_reporting
    (observers : List (Observer κ τ ω))
    (context : Context κ τ)
    (closing : List (Notification κ τ)) :
    (reporting observers context closing).any Activity.isSelection = false ∧
      (reporting observers context closing).any Activity.isStepFailure = false := by
  rw [reporting, List.any_flatMap, List.any_flatMap]
  simp [any_told]

omit [DecidableEq κ] [DecidableEq τ] in
/-- Selecting is no failure of a step, and it is a selection if something is chosen. -/
theorem any_selecting
    (answers : List (Entry κ τ ω × Except GuardFault Bool))
    (chosen : Option (Entry κ τ ω)) :
    (Work.selecting answers chosen).any Activity.isSelection = chosen.isSome ∧
      (Work.selecting answers chosen).any Activity.isStepFailure = false := by
  cases chosen with
  | none => simp [Work.selecting, Activity.isSelection, Activity.isStepFailure]
  | some entry => simp [Work.selecting, Activity.isSelection, Activity.isStepFailure]

namespace Account.IsRight

variable {account : Account κ τ ω} (isRight : account.IsRight definition)

include isRight

/-- While steps are taken nothing is selected, and a step fails if there is a failure. -/
theorem any_steps :
    account.steps.any Activity.isSelection = false ∧
      account.steps.any Activity.isStepFailure = account.failure.isSome := by
  cases chosen : account.chosen with
  | none =>
      obtain ⟨_, steps_eq, failure_eq⟩ := isRight.idle chosen
      simp [steps_eq, failure_eq]
  | some entry =>
      obtain ⟨steps, steps_eq, taken⟩ := isRight.taken chosen
      have planned : (Work.planning definition (definition.planOf? account.before.configuration
            entry) : List (Activity κ τ)).any Activity.isSelection = false ∧
          (Work.planning definition (definition.planOf? account.before.configuration
            entry) : List (Activity κ τ)).any Activity.isStepFailure = false := by
        cases definition.planOf? account.before.configuration entry <;> exact ⟨rfl, rfl⟩
      rw [steps_eq, List.any_append, List.any_append, planned.1, planned.2]
      generalize account.failure = failure at taken
      generalize account.done = done at taken
      cases taken with
      | all => simp [Activity.isSelection, Activity.isStepFailure, Function.comp_def]
      | upTo _ failed =>
          obtain ⟨rfl, _⟩ := failed
          simp [Activity.isSelection, Activity.isStepFailure, Function.comp_def]

/-- Before an event is counted its report comes about. -/
theorem any_early :
    (.began account.event :: account.early definition).any Activity.isSelection =
        account.chosen.isSome ∧
      (.began account.event :: account.early definition).any Activity.isStepFailure =
        account.failure.isSome := by
  have telling := any_told definition.observers (.begin (account.begun definition))
  have selecting := any_selecting account.answers account.chosen
  rw [early, List.any_cons, List.any_cons, List.any_append, List.any_append, List.any_append,
    List.any_append, telling.1, telling.2, selecting.1, selecting.2, isRight.any_steps.1,
    isRight.any_steps.2]
  simp [Activity.isSelection, Activity.isStepFailure]

/-- Nothing is published before an event is counted. -/
theorem unpublished_early :
    ∀ deed ∈ .began account.event :: account.early definition, deed.published? = none := by
  intro deed member
  rcases List.mem_cons.mp member with rfl | member
  · rfl
  · exact isRight.published?_of_mem_early member

/-- An event is reported once. -/
theorem reports_chapter (later : List (Activity κ τ)) :
    reports (account.chapter definition ++ later) =
      account.report definition :: reports later := by
  obtain ⟨selected, failed⟩ := isRight.any_early
  have reported := any_reporting definition.observers (account.context definition)
    (account.closing definition)
  have chapter_eq : account.chapter definition ++ later =
      (.began account.event :: account.early definition) ++
        .published ((account.after definition).snapshot definition) ::
          (reporting definition.observers (account.context definition)
            (account.closing definition) ++ later) := by
    simp [chapter, deeds]
  rw [chapter_eq, reports_append_published isRight.unpublished_early, selected, failed,
    reports_append_of_quiet (fun _ member => published?_of_mem_reporting member) reported.1
      reported.2]
  rfl

/-- On the way through an event it is not reported, until it is reported. -/
theorem reports_of_isPrefix
    {sofar : List (Activity κ τ)}
    (onTheWay : sofar <+: account.deeds definition) :
    reports (.began account.event :: sofar) = [] ∨
      reports (.began account.event :: sofar) = [account.report definition] := by
  rcases Account.cases_of_isPrefix_deeds onTheWay with early | ⟨told, reported, rfl⟩
  · left
    refine reports_eq_nil fun deed member => isRight.unpublished_early deed ?_
    exact List.cons_subset_cons _ early.subset member
  · right
    obtain ⟨selected, failed⟩ := isRight.any_early
    rw [List.append_assoc, List.singleton_append, ← List.cons_append,
      reports_append_published isRight.unpublished_early, selected, failed,
      reports_eq_nil fun deed member => published?_of_mem_reporting (reported.subset member)]
    rfl

end Account.IsRight

/-- Each event is reported once. -/
theorem Handles.reports_append
    {first worker : Worker κ}
    {accounts : List (Account κ τ ω)}
    (handles : Handles definition first accounts worker)
    (later : List (Activity κ τ)) :
    reports (accounts.flatMap (Account.chapter definition) ++ later) =
      accounts.map (Account.report definition) ++ reports later := by
  induction handles generalizing later with
  | nothing => rfl
  | event _ isRight _ _ inductionHypothesis =>
      rw [List.flatMap_append, List.flatMap_singleton, List.append_assoc, inductionHypothesis,
        isRight.reports_chapter, List.map_append, List.append_assoc]
      rfl

/-! ## The beginning and the end -/

omit [DecidableEq τ] [Inspect τ] in
/-- A worker that has opened is reported once. -/
theorem Work.Begins.reports_append
    {beginning : Beginning κ}
    {work : Work κ τ ω (Worker κ)}
    (begins : Begins definition beginning work)
    {opened : List (Activity κ τ)}
    {first : Worker κ}
    (opens : (thenPublish definition work).Performs opened first) :
    ∀ later, reports (opened ++ later) =
      first.report definition (opened.any Activity.isStepFailure) :: reports later := by
  have apart := begins.opens.apart opens
  obtain ⟨earlier, rfl, worked⟩ := performs_thenPublish opens
  have unselected : earlier.any Activity.isSelection = false := by
    rw [List.any_eq_false]
    intro deed member
    cases apart deed (List.mem_append_left _ member) <;> exact Bool.false_ne_true
  intro later
  rw [List.append_assoc, List.singleton_append,
    reports_append_published (begins.isPlain.unpublished worked), unselected, List.any_append]
  simp [Worker.report, Activity.isStepFailure]

omit [DecidableEq τ] [Inspect τ] in
/-- While a worker opens it is not reported, until it has done all it does to open. -/
theorem Work.Begins.reports_of_leads
    {beginning : Beginning κ}
    {work later : Work κ τ ω (Worker κ)}
    (begins : Begins definition beginning work)
    {opened : List (Activity κ τ)}
    (leads : (thenPublish definition work).Leads opened later)
    (session : Session κ τ ω) :
    reports opened = [] ∨
      ∃ first, (thenPublish definition work).Performs opened first := by
  obtain ⟨rest, first, performs⟩ := leads.exists_performs session
  obtain ⟨earlier, split, worked⟩ := performs_thenPublish performs
  have onTheWay : opened <+: earlier ++ [.published (first.snapshot definition)] :=
    ⟨rest, split⟩
  rcases List.prefix_concat_iff.mp onTheWay with all | early
  · rw [split, ← all] at performs
    exact .inr ⟨first, performs⟩
  · exact .inl (reports_eq_nil fun deed member =>
      begins.isPlain.unpublished worked deed (early.subset member))

omit [DecidableEq τ] [Inspect τ] in
/-- What is shown at the end has the history and the counts of before. -/
theorem Work.eq_of_mem_reports_shutdown
    {worker : Worker κ}
    {later : Work κ τ ω (Worker κ)}
    {deeds : List (Activity κ τ)}
    (leads : (shutdown definition worker).Leads deeds later)
    (session : Session κ τ ω)
    {report : Report κ}
    (member : report ∈ reports deeds) :
    report.shown.history = worker.history ∧ report.shown.metadata = worker.metadata := by
  obtain ⟨rest, left, performs⟩ := leads.exists_performs session
  simp only [shutdown, performs_bind_iff, performs_note_iff, performs_done_iff] at performs
  obtain ⟨_, published, _, deeds_eq, publishes, _, rfl, rfl, rfl⟩ := performs
  obtain ⟨leaving, rfl, leaves⟩ := performs_thenPublish publishes
  obtain ⟨_, _, _, left_eq⟩ := performs_leaveAll leaves
  have unpublished := (isPlain_leaveAll definition _ worker).unpublished leaves
  have shown : report.shown ∈ deeds.filterMap Activity.published? := by
    rw [← map_shown_reports]
    exact List.mem_map_of_mem member
  obtain ⟨deed, done, published⟩ := List.mem_filterMap.mp shown
  have among : deed ∈ leaving ++ [.published (left.snapshot definition)] ++
      [.stopped left.metadata.processed] := deeds_eq ▸ List.mem_append_left _ done
  simp only [List.mem_append, List.mem_singleton] at among
  rcases among with (early | rfl) | rfl
  · rw [unpublished deed early] at published
    contradiction
  · rw [← Option.some.inj published, left_eq]
    exact ⟨rfl, rfl⟩
  · contradiction

/-! ## A life -/

/-- A worker has been reported for its opening and for each event that it has handled, before
anything is reported of its present task. -/
theorem Work.Begins.reports_deeds
    {beginning : Beginning κ}
    {work : Work κ τ ω (Worker κ)}
    (begins : Begins definition beginning work)
    {opened : List (Activity κ τ)}
    {first worker : Worker κ}
    {accounts : List (Account κ τ ω)}
    (opens : (thenPublish definition work).Performs opened first)
    (handles : Handles definition first accounts worker)
    (current : List (Activity κ τ)) :
    reports (Chronicle.deeds definition ⟨opened, accounts, current⟩) =
        first.report definition (opened.any Activity.isStepFailure) ::
          accounts.map (Account.report definition) ++ reports current ∧
      (Chronicle.deeds definition ⟨opened, accounts, current⟩).filterMap Activity.began? =
        accounts.map Account.event ++ current.filterMap Activity.began? := by
  constructor
  · rw [Chronicle.deeds, List.append_assoc, begins.reports_append opens,
      handles.reports_append]
    rfl
  · rw [Chronicle.deeds, List.filterMap_append, List.filterMap_append,
      opens.filterMap_began, handles.filterMap_began, List.nil_append]

/-- At every stage of its life a worker has not been reported at all, or it has been reported
when it had opened, then once for each of the first events that it has begun, and then at its
end. -/
theorem Stage.reports_cases
    (forest : definition.graph.IsForest)
    (fits : definition.table.Fits definition.graph)
    {beginning : Beginning κ}
    {work : Work κ τ ω (Worker κ)}
    (begins : Work.Begins definition beginning work)
    {told : Bool}
    {remaining : Option (Worker κ)}
    {hand : Option (Task τ × Work κ τ ω (Worker κ))}
    {chronicle : Chronicle κ τ ω}
    (stage : Stage definition (Work.thenPublish definition work) told remaining hand chronicle)
    (session : Session κ τ ω) :
    reports (chronicle.deeds definition) = [] ∨
      ∃ opened first accounts worker ending,
        (Work.thenPublish definition work).Performs opened first ∧
          Handles definition first accounts worker ∧
          reports (chronicle.deeds definition) =
            first.report definition (opened.any Activity.isStepFailure) ::
              accounts.map (Account.report definition) ++ ending ∧
          accounts.map Account.event <+:
            (chronicle.deeds definition).filterMap Activity.began? ∧
          (ending ≠ [] → told = true) ∧
          ∀ report ∈ ending,
            report.shown.history = worker.history ∧ report.shown.metadata = worker.metadata := by
  cases stage with
  | opening leads =>
      rcases begins.reports_of_leads leads session with nothing | ⟨first, opens⟩
      · left
        simpa [Chronicle.deeds] using nothing
      · obtain ⟨reports_eq, began_eq⟩ := begins.reports_deeds opens .nothing []
        exact .inr ⟨_, first, [], first, [], opens, .nothing, reports_eq,
          List.nil_prefix, by simp, by simp⟩
  | idle opens handles =>
      obtain ⟨reports_eq, began_eq⟩ := begins.reports_deeds opens handles []
      refine .inr ⟨_, _, _, _, [], opens, handles, reports_eq, ?_, by simp, by simp⟩
      rw [began_eq]
      exact List.prefix_append _ _
  | @event _ first _ _ deeds accounts _ _ opens handles leads =>
      obtain ⟨rest, after, performs⟩ := leads.exists_performs session
      obtain ⟨account, isRight, rfl, rfl, deeds_eq, rfl, executes⟩ :=
        Work.exists_account_of_performs_process forest fits performs
      obtain ⟨reports_eq, began_eq⟩ :=
        begins.reports_deeds opens handles (.began account.event :: deeds)
      rcases isRight.reports_of_isPrefix ⟨rest, deeds_eq.symm⟩ with nothing | once
      · rw [nothing] at reports_eq
        refine .inr ⟨_, first, _, _, [], opens, handles, reports_eq, ?_, by simp,
          by simp⟩
        rw [began_eq]
        exact List.prefix_append _ _
      · rw [← deeds_eq] at performs
        rw [once, List.cons_append] at reports_eq
        refine .inr ⟨_, first, _, _, [], opens, .event handles isRight performs executes,
          ?_, ?_, by simp, by simp⟩
        · rw [reports_eq, List.map_append, List.append_nil]
          rfl
        · rw [began_eq, List.map_append, List.prefix_append_right_inj]
          exact ⟨_, rfl⟩
  | closing opens handles leads =>
      obtain ⟨reports_eq, began_eq⟩ := begins.reports_deeds opens handles _
      refine .inr ⟨_, _, _, _, _, opens, handles, reports_eq, ?_, fun _ => rfl,
        fun report => Work.eq_of_mem_reports_shutdown leads session⟩
      rw [began_eq]
      exact List.prefix_append _ _
  | ended opens handles performs =>
      obtain ⟨reports_eq, began_eq⟩ := begins.reports_deeds opens handles _
      refine .inr ⟨_, _, _, _, _, opens, handles, reports_eq, ?_, fun _ => rfl,
        fun report => Work.eq_of_mem_reports_shutdown performs session⟩
      rw [began_eq]
      exact List.prefix_append _ _

end Events
end Statechart
