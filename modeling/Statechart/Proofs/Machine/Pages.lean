import Statechart.Proofs.Machine.Evolution
import Statechart.Proofs.Machine.Reports

/-!
# The pages of a machine's life

A report with the record that was made before it, if any, is a page. Each page is written on
from the one before: a record is added to the history where a transition was completed, and
where nothing has failed the record leads from the leaves on one page to those on the next.
-/

namespace Statechart

variable {κ τ ω : Type}

/-! ## Pages -/

/-- A report with the record that was made before the snapshot was published. -/
structure Page (κ : Type) where
  /-- The report. -/
  report : Report κ
  /-- The record. -/
  record : Option (Record κ)

namespace Page

/-- What is shown on a page. -/
def shown (page : Page κ) : Snapshot κ :=
  page.report.shown

/-- A page records what was completed, and shows what this has come to. -/
structure IsRight (page : Page κ) : Prop where
  /-- There is a record exactly if a transition was completed. -/
  isSome_record : page.record.isSome = page.report.isCompleted
  /-- The record leads to the active leaves. -/
  after_eq {record : Record κ} : page.record = some record → record.after = page.shown.active
  /-- The record has the number of the event. -/
  number_eq {record : Record κ} :
    page.record = some record → record.number = page.shown.metadata.count

/-- A page is written on from another one. The leaves on both are compared by a given
relation. -/
structure Continues
    (alike : List κ → List κ → Prop)
    (earlier later : Page κ) : Prop where
  /-- A record is added to the history, and nothing else. -/
  history_eq :
    later.shown.history = later.record.elim earlier.shown.history earlier.shown.history.record
  /-- At most one event has been counted. -/
  count_cases :
    later.shown.metadata.count = earlier.shown.metadata.count ∨
      later.shown.metadata.count = earlier.shown.metadata.count + 1
  /-- With a record an event has been counted. -/
  count_eq :
    later.record.isSome = true →
      later.shown.metadata.count = earlier.shown.metadata.count + 1
  /-- A record leads from the leaves of the earlier page. -/
  before_alike {record : Record κ} :
    later.record = some record → alike earlier.shown.active record.before
  /-- Where nothing was recorded and nothing has failed the leaves stay. -/
  active_alike :
    later.record = none → later.report.isFailed = false →
      alike earlier.shown.active later.shown.active

end Page

/-- After pages that are written on from one another all their records have been added to the
first history. -/
theorem Page.history_eq
    {alike : List κ → List κ → Prop}
    {pages : List (Page κ)}
    (continues : pages.IsChain (Page.Continues alike))
    {initial : History κ}
    (first : ∀ page ∈ pages.head?, page.record = none ∧ page.shown.history = initial) :
    ∀ page ∈ pages.getLast?,
      page.shown.history = (pages.filterMap Page.record).foldl History.record initial := by
  induction pages using List.reverseRecOn with
  | nil => simp
  | append_singleton pages last inductionHypothesis =>
      intro page isLast
      rw [List.getLast?_concat, Option.mem_some_iff] at isLast
      subst isLast
      rw [List.filterMap_append, List.foldl_append]
      rcases List.eq_nil_or_concat pages with rfl | ⟨before, previous, rfl⟩
      · obtain ⟨unrecorded, history_eq⟩ := first last rfl
        simp [unrecorded, history_eq]
      · rw [List.concat_eq_append] at *
        obtain ⟨chain, _, step⟩ := List.isChain_append.mp continues
        have isPrevious : previous ∈ (before ++ [previous]).getLast? := List.getLast?_concat ..
        rw [← inductionHypothesis chain (fun page isFirst => first page (by
          rw [List.head?_append, Option.mem_def.mp isFirst]
          rfl)) previous isPrevious, (step previous isPrevious last rfl).history_eq]
        cases record : last.record with
        | none => simp [record]
        | some record => simp [record]

/-- The page of an event. -/
def Account.page
    [Inspect τ]
    (definition : Definition κ τ ω)
    (account : Account κ τ ω) : Page κ where
  report := account.report definition
  record := if account.isCompleted then some (account.record definition) else none

/-- The page of a worker that has opened, where a step may have failed. -/
def Worker.page
    (definition : Definition κ τ ω)
    (worker : Worker κ)
    (isFailed : Bool) : Page κ :=
  ⟨worker.report definition isFailed, none⟩

/-- There is no record on the page, so none that could be wrong. -/
theorem Worker.isRight_page
    (definition : Definition κ τ ω)
    (worker : Worker κ)
    (isFailed : Bool) :
    (worker.page definition isFailed).IsRight where
  isSome_record := rfl
  after_eq recorded := absurd recorded (Option.some_ne_none _).symm
  number_eq recorded := absurd recorded (Option.some_ne_none _).symm

/-! ## The pages of events -/

section Events

variable
  [DecidableEq κ]
  [StateKey κ]
  [DecidableEq τ]
  [Inspect τ]
  {definition : Definition κ τ ω}

omit [DecidableEq κ] [StateKey κ] [DecidableEq τ] in
/-- What is recorded of an event is its record. -/
theorem Account.eq_record
    {account : Account κ τ ω}
    {record : Record κ}
    (recorded : (account.page definition).record = some record) :
    record = account.record definition := by
  obtain ⟨_, same⟩ := Option.ite_none_right_eq_some.mp recorded
  exact (Option.some.inj same).symm

omit [DecidableEq κ] [StateKey κ] [DecidableEq τ] in
/-- The page of an event is right if the event has the next number. -/
theorem Account.isRight_page
    {account : Account κ τ ω}
    (numbered : account.event.number = account.before.metadata.count + 1) :
    (account.page definition).IsRight where
  isSome_record := by
    rw [page, report, Report.isCompleted, Account.isCompleted]
    cases account.chosen <;> cases account.failure <;> rfl
  after_eq recorded := by
    rw [eq_record recorded]
    rfl
  number_eq recorded := by
    rw [eq_record recorded]
    exact numbered

/-- The page of an event is written on from any page that shows the worker before. -/
theorem Account.IsRight.continues_page
    {account : Account κ τ ω}
    (isRight : account.IsRight definition)
    {earlier : Page κ}
    (shown_eq : earlier.shown = account.before.snapshot definition) :
    earlier.Continues Eq (account.page definition) where
  history_eq := by
    rw [shown_eq]
    change (account.after definition).history = _
    rw [after, Worker.counted, page]
    cases account.isCompleted <;> rfl
  count_cases := by
    rw [shown_eq]
    exact .inr rfl
  count_eq _ := by
    rw [shown_eq]
    rfl
  before_alike recorded := by
    rw [shown_eq, eq_record recorded]
    rfl
  active_alike unrecorded unfailed := by
    have chosen : account.chosen = none := by
      have failure : account.failure = none := by
        simpa [page, report] using unfailed
      simpa [page, Account.isCompleted, failure] using unrecorded
    rw [shown_eq]
    change _ = account.active definition
    rw [Account.active, configuration, (isRight.idle chosen).1]
    rfl

/-- The pages of events are written on from the first page, and the last one shows the
worker. -/
theorem Handles.isChain_pages
    {first worker : Worker κ}
    {accounts : List (Account κ τ ω)}
    (handles : Handles definition first accounts worker)
    (isFailed : Bool) :
    (first.page definition isFailed :: accounts.map (Account.page definition)).IsChain
        (Page.Continues Eq) ∧
      ∀ page ∈ (first.page definition isFailed ::
        accounts.map (Account.page definition)).getLast?,
          page.shown = worker.snapshot definition := by
  induction handles with
  | nothing => simp [Worker.page, Worker.report, Page.shown]
  | @event accounts account _ isRight _ _ inductionHypothesis =>
      obtain ⟨chain, last⟩ := inductionHypothesis
      rw [List.map_append, List.map_singleton, ← List.cons_append]
      refine ⟨List.isChain_append.mpr ⟨chain, .singleton _, fun page isLast other isFirst => ?_⟩,
        fun page isLast => ?_⟩
      · obtain rfl : account.page definition = other := by simpa using isFirst
        exact isRight.continues_page (last page isLast)
      · rw [List.getLast?_concat, Option.mem_some_iff] at isLast
        rw [← isLast]
        rfl

/-- Every event has the number that its worker counts next. -/
theorem Handles.numbered
    {first worker : Worker κ}
    {accounts : List (Account κ τ ω)}
    (handles : Handles definition first accounts worker)
    (numbers_eq : accounts.map (fun account => account.event.number) =
      Word.following first.metadata.count accounts.length) :
    ∀ account ∈ accounts,
      account.event.number = account.before.metadata.count + 1 := by
  intro account member
  obtain ⟨earlier, later, rfl⟩ := List.append_of_mem member
  have counted := (handles.of_split rfl).1.count_eq
  rw [List.map_append, List.length_append, Word.following_append] at numbers_eq
  obtain ⟨_, rest_eq⟩ := List.append_inj numbers_eq (by simp)
  rw [List.map_cons, List.length_cons, Word.following_succ] at rest_eq
  rw [(List.cons.inj rest_eq).1, counted]

/-- Every page shows the leaves of a consistent configuration. -/
theorem Handles.leaves_of_mem_pages
    (wellFormed : definition.IsWellFormed)
    {first worker : Worker κ}
    {accounts : List (Account κ τ ω)}
    (handles : Handles definition first accounts worker)
    (consistent : first.configuration.IsConsistent definition.graph)
    (isFailed : Bool) :
    ∀ page ∈ first.page definition isFailed :: accounts.map (Account.page definition),
      ∃ configuration : Configuration, configuration.IsConsistent definition.graph ∧
        page.shown.active = definition.graph.keys (configuration.leaves definition.graph) := by
  induction handles with
  | nothing =>
      intro page member
      rw [List.mem_singleton.mp member]
      exact ⟨_, consistent, rfl⟩
  | @event accounts account earlier isRight performs executes inductionHypothesis =>
      obtain ⟨_, after⟩ :=
        (Handles.event earlier isRight performs executes).evolves wellFormed consistent
      intro page member
      rw [List.map_append, ← List.cons_append, List.mem_append] at member
      rcases member with before | last
      · exact inductionHypothesis page before
      · rw [List.mem_singleton.mp last]
        exact ⟨_, after, rfl⟩

end Events

/-! ## Courses -/

/-- The history with which a machine begins. -/
def Beginning.history (definition : Definition κ τ ω) : Beginning κ → History κ
  | .start => .empty definition.settings.historyLimit
  | .restore checkpoint => checkpoint.history

namespace Course

variable
  [DecidableEq κ]
  [StateKey κ]
  [DecidableEq τ]
  [Inspect τ]
  {definition : Definition κ τ ω}

/-- The machine of a course has published what stands on some pages, and then something at its
end. -/
structure Keeps
    (course : Course definition)
    (pages : List (Page κ))
    (ending : List (Report κ)) : Prop where
  /-- This is all that the machine has published. -/
  reports_eq : course.reports = pages.map Page.report ++ ending
  /-- There is a page for the opening and one for each event that has been counted. -/
  length_le : pages.length ≤ course.scene.machine.session.begun.length + 1
  /-- Only a worker that has been told to stop comes to its end. -/
  told_of_ending : ending ≠ [] → course.scene.told = true
  /-- At the end the history and the counts stay. -/
  ending_eq {report : Report κ} :
    report ∈ ending → ∃ page, pages.getLast? = some page ∧
      report.shown.history = page.shown.history ∧ report.shown.metadata = page.shown.metadata
  /-- On the first page nothing is recorded, and the history is that of the beginning. -/
  first {page : Page κ} :
    pages.head? = some page →
      page.record = none ∧ page.shown.history = course.beginning.history definition ∧
        page.shown.metadata.count = course.beginning.base
  /-- After a restoration the first page shows the leaves of the configuration that the
  checkpoint stands for. -/
  restored {checkpoint : Checkpoint κ} {page : Page κ} :
    course.beginning = .restore checkpoint → pages.head? = some page →
      page.report.isFailed = false ∧ ∃ configuration,
        Machine.configurationOf definition.graph checkpoint = .ok configuration ∧
          page.shown.active = definition.graph.keys (configuration.leaves definition.graph)
  /-- Every page is right. -/
  right {page : Page κ} : page ∈ pages → page.IsRight
  /-- Each page is written on from the one before. -/
  continues : pages.IsChain (Page.Continues Eq)
  /-- Every page shows the leaves of a consistent configuration. -/
  leaves {page : Page κ} :
    page ∈ pages → ∃ configuration : Configuration,
      configuration.IsConsistent definition.graph ∧
        page.shown.active = definition.graph.keys (configuration.leaves definition.graph)

end Course

section Courses

variable
  [DecidableEq κ]
  [StateKey κ]
  [DecidableEq τ]
  [Inspect τ]
  {definition : Definition κ τ ω}

omit [DecidableEq τ] [Inspect τ] in
/-- A worker has opened with the history of the beginning. -/
theorem Work.Begins.history_eq
    {beginning : Beginning κ}
    {work : Work κ τ ω (Worker κ)}
    (begins : Begins definition beginning work)
    {opened : List (Activity κ τ)}
    {first : Worker κ}
    (opens : (thenPublish definition work).Performs opened first) :
    first.history = beginning.history definition := by
  obtain ⟨_, _, worked⟩ := performs_thenPublish opens
  cases begins with
  | start clock world =>
      obtain ⟨_, _, _, _, _, rfl⟩ := performs_enterInitial worked
      rfl
  | restore restored =>
      simp only [performs_note_iff, performs_done_iff] at worked
      obtain ⟨_, _, _, rfl⟩ := worked
      rfl

omit [DecidableEq τ] [Inspect τ] in
/-- A worker that has taken over the position of a checkpoint has its configuration, and
nothing has failed. -/
theorem Work.Begins.of_restore
    {checkpoint : Checkpoint κ}
    {work : Work κ τ ω (Worker κ)}
    (begins : Begins definition (.restore checkpoint) work)
    {opened : List (Activity κ τ)}
    {first : Worker κ}
    (opens : (thenPublish definition work).Performs opened first) :
    opened.any Activity.isStepFailure = false ∧
      Machine.configurationOf definition.graph checkpoint = .ok first.configuration := by
  obtain ⟨_, rfl, worked⟩ := performs_thenPublish opens
  cases begins with
  | restore restored =>
      simp only [performs_note_iff, performs_done_iff] at worked
      obtain ⟨_, rfl, rfl, rfl⟩ := worked
      exact ⟨rfl, restored⟩

/-- The machine of a course has published a page for its opening and one for each event that it
has counted. -/
theorem Course.exists_keeps
    {draft : MachineDraft κ τ ω}
    (built : draft.build = .ok definition)
    (course : Course definition) :
    ∃ pages ending, course.Keeps pages ending := by
  have wellFormed := Definition.isWellFormed_of_build built
  have forest := wellFormed.forest
  obtain ⟨work, chronicle, begins, unfolds⟩ := course.exists_unfolds_of_begins built
  have deeds_eq := unfolds.deeds_eq
  rcases unfolds.stage.reports_cases forest (Definition.fits_of_build built) begins
    course.scene.machine.session with
    nothing | ⟨opened, first, accounts, worker, ending, opens, handles, reports_eq, begun, isTold,
      ending_eq⟩
  · refine ⟨[], [], ?_⟩
    exact {
      reports_eq := by rw [reports, deeds_eq, nothing]; rfl
      length_le := Nat.zero_le _
      told_of_ending := by simp
      ending_eq := by simp
      first := by simp
      restored := by simp
      right := by simp
      continues := .nil
      leaves := by simp }
  · have base_eq := begins.opens.count_eq opens
    have consistent := (begins.evolves forest opens).isConsistent forest
      (course.beginning.isConsistent_origin forest)
    obtain ⟨continues, last⟩ :=
      handles.isChain_pages (opened.any Activity.isStepFailure)
    have numbers_eq : accounts.map (fun account => account.event.number) =
        Word.following first.metadata.count accounts.length := by
      obtain ⟨others, begun_eq⟩ := begun
      have all_eq := unfolds.begun_numbers_eq
      rw [Session.begun_eq_filterMap_deeds, deeds_eq, ← begun_eq, List.map_append,
        List.length_append, Word.following_append, ← base_eq] at all_eq
      obtain ⟨first_eq, _⟩ := List.append_inj all_eq (by simp)
      rwa [List.map_map, List.length_map] at first_eq
    refine ⟨first.page definition (opened.any Activity.isStepFailure) ::
      accounts.map (Account.page definition), ending, ?_⟩
    exact {
      reports_eq := by
        rw [reports, deeds_eq, reports_eq, List.map_cons, List.map_map]
        rfl
      length_le := by
        rw [Session.begun_eq_filterMap_deeds, deeds_eq]
        simpa using begun.length_le
      told_of_ending := isTold
      ending_eq := by
        intro report member
        obtain ⟨page, isLast⟩ : ∃ page, (first.page definition
            (opened.any Activity.isStepFailure) ::
              accounts.map (Account.page definition)).getLast? = some page :=
          ⟨_, List.getLast?_eq_some_getLast (List.cons_ne_nil _ _)⟩
        rw [(ending_eq report member).1, (ending_eq report member).2]
        exact ⟨page, isLast, congrArg Snapshot.history (last page isLast).symm,
          congrArg Snapshot.metadata (last page isLast).symm⟩
      first := by
        rintro _ ⟨⟩
        exact ⟨rfl, begins.history_eq opens, base_eq⟩
      restored := by
        rintro checkpoint _ beginning_eq ⟨⟩
        rw [beginning_eq] at begins
        obtain ⟨unfailed, restored⟩ := begins.of_restore opens
        exact ⟨unfailed, _, restored, rfl⟩
      right := by
        intro page member
        rcases List.mem_cons.mp member with rfl | member
        · exact first.isRight_page definition _
        · obtain ⟨account, listed, rfl⟩ := List.mem_map.mp member
          exact Account.isRight_page (handles.numbered numbers_eq account listed)
      continues := continues
      leaves := fun member => handles.leaves_of_mem_pages wellFormed consistent _ _ member }

/-- What the machine of a course shows is what it has published last, or blank. -/
theorem Course.snapshot_eq
    {draft : MachineDraft κ τ ω}
    (built : draft.build = .ok definition)
    (course : Course definition) :
    course.scene.machine.snapshot =
      (course.reports.map Report.shown).getLastD course.blank := by
  obtain ⟨_, _, _, unfolds⟩ := course.exists_unfolds_of_begins built
  rw [Machine.snapshot, unfolds.shown_eq, Session.shownAfter_eq_getLastD, reports,
    map_shown_reports]

end Courses
end Statechart
