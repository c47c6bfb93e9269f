import Statechart.Proofs.History
import Statechart.Proofs.Machine.Pages

/-!
# What a machine retains

The limit travels with the history. A machine that starts has an empty history with its own
limit, so it never shows more records than that, and those that it shows are the last ones. A
machine that is restored goes on with the history of the checkpoint, and with the limit of this
history in place of its own.
-/

namespace Statechart

variable {κ τ ω : Type} [DecidableEq κ] [StateKey κ] [DecidableEq τ] [Inspect τ]

/-- What remains of a history and of the records that are made afterwards. -/
def History.retaining (history : History κ) (made : List (Record κ)) : History κ :=
  { history with
    records :=
      if made.isEmpty then history.records
      else History.trim history.limit (history.records ++ made) }

omit [DecidableEq κ] [StateKey κ] in
/-- This is what adding the records one by one comes to. -/
theorem History.foldl_record_eq_retaining (history : History κ) (made : List (Record κ)) :
    made.foldl History.record history = history.retaining made := by
  have limit_eq := limit_foldl_record made history
  have records_eq : (made.foldl record history).records = (history.retaining made).records := by
    cases made with
    | nil => rfl
    | cons first others => exact records_foldl_record (List.cons_ne_nil _ _) history
  calc made.foldl record history
      = ⟨(made.foldl record history).records, (made.foldl record history).limit⟩ := rfl
    _ = history.retaining made := by rw [records_eq, limit_eq]; rfl

omit [DecidableEq κ] [StateKey κ] in
/-- A history within its limit stays within it. -/
theorem History.length_retaining_le
    {history : History κ}
    {bound : Nat}
    (limited : history.limit = some bound)
    (within : history.records.length ≤ bound)
    (made : List (Record κ)) :
    (history.retaining made).records.length ≤ bound := by
  rw [retaining]
  simp only
  split
  · exact within
  · rw [limited, length_trim]
    exact Nat.min_le_left _ _

namespace Course

variable {definition : Definition κ τ ω}

/-- The machine of a course retains the last records of the history with which it begins and of
those that it makes. -/
structure Retains
    (course : Course definition)
    (pages : List (Page κ))
    (ending : List (Report κ)) : Prop where
  /-- The pages and the ending are what the machine has published. -/
  keeps : course.Keeps pages ending
  /-- Each page shows what remains of the first history and of the records made up to then. -/
  history_eq {earlier later : List (Page κ)} {page : Page κ} :
    pages = earlier ++ page :: later →
      page.shown.history =
        (course.beginning.history definition).retaining
          ((earlier ++ [page]).filterMap Page.record)
  /-- What is shown at the end is what the last page shows. -/
  ending_eq {report : Report κ} :
    report ∈ ending → ∃ page, pages.getLast? = some page ∧
      report.shown.history = page.shown.history
  /-- A captured checkpoint holds the history that has been published last. Before anything has
  been published it is empty. -/
  captured (id : Uuid) :
    (course.scene.machine.checkpoint id).history =
      (course.reports.getLast?.elim (History.empty definition.settings.historyLimit)
        fun report => report.shown.history)
  /-- The limit is that of the first history. A history within its limit stays within it. -/
  limited {report : Report κ} :
    report ∈ course.reports →
      report.shown.history.limit = (course.beginning.history definition).limit ∧
        ∀ bound, (course.beginning.history definition).limit = some bound →
          (course.beginning.history definition).records.length ≤ bound →
            report.shown.history.records.length ≤ bound
  /-- After a start the history shown is limited as the machine is told, and it holds the last
  of all records that have been made. -/
  started {bound : Nat} :
    course.beginning = .start → definition.settings.historyLimit = some bound →
      (∀ report ∈ course.reports, report.shown.history.limit = some bound ∧
        report.shown.history.records.length ≤ bound) ∧
        ∀ earlier page later, pages = earlier ++ page :: later →
          page.shown.history.records =
            History.trim (some bound) ((earlier ++ [page]).filterMap Page.record)
  /-- After a restoration the history shown is limited as the checkpoint tells, whatever the
  machine is told. -/
  resumed {checkpoint : Checkpoint κ} :
    course.beginning = .restore checkpoint →
      ∀ report ∈ course.reports, report.shown.history.limit = checkpoint.history.limit

namespace Keeps

variable
  {course : Course definition}
  {pages : List (Page κ)}
  {ending : List (Report κ)}
  (keeps : course.Keeps pages ending)

include keeps

/-- Each page shows what remains of the first history and of the records made up to then. -/
theorem history_eq
    {earlier later : List (Page κ)}
    {page : Page κ}
    (split : pages = earlier ++ page :: later) :
    page.shown.history =
      (course.beginning.history definition).retaining
        ((earlier ++ [page]).filterMap Page.record) := by
  have sofar : (earlier ++ [page]) ++ later = pages := by simp [split]
  have continues : (earlier ++ [page]).IsChain (Page.Continues Eq) := by
    have all := keeps.continues
    rw [← sofar] at all
    exact all.left_of_append
  rw [← History.foldl_record_eq_retaining]
  refine Page.history_eq continues (fun other isFirst => ?_) page (List.getLast?_concat ..)
  have isHead : pages.head? = some other := by
    rw [← sofar, List.head?_append, Option.mem_def.mp isFirst]
    rfl
  exact ⟨(keeps.first isHead).1, (keeps.first isHead).2.1⟩

/-- Every snapshot shows what remains of the first history and of some records. -/
theorem exists_retaining
    {report : Report κ}
    (member : report ∈ course.reports) :
    ∃ made, report.shown.history = (course.beginning.history definition).retaining made := by
  have of_page {page : Page κ} (listed : page ∈ pages) :
      ∃ made, page.shown.history = (course.beginning.history definition).retaining made := by
    obtain ⟨_, _, split⟩ := List.append_of_mem listed
    exact ⟨_, keeps.history_eq split⟩
  rw [keeps.reports_eq, List.mem_append] at member
  rcases member with onPage | atEnd
  · obtain ⟨page, listed, rfl⟩ := List.mem_map.mp onPage
    exact of_page listed
  · obtain ⟨page, isLast, history_eq, _⟩ := keeps.ending_eq atEnd
    rw [history_eq]
    exact of_page (List.mem_of_getLast? isLast)

end Keeps

/-- A machine that starts shows at most as many records as it is told to keep, and they are the
last ones. A machine that is restored keeps what the history of the checkpoint is told to keep. -/
theorem retains
    {draft : MachineDraft κ τ ω}
    (built : draft.build = .ok definition) :
    (∀ run : Run definition, ∃ course : Course definition,
      course.beginning = run.beginning ∧ course.scene = run.machine.scene) ∧
      ∀ course : Course definition, ∃ pages ending, course.Retains pages ending := by
  refine ⟨fun run => run.exists_course, fun course => ?_⟩
  obtain ⟨pages, ending, keeps⟩ := course.exists_keeps built
  refine ⟨pages, ending, ?_⟩
  have limit_eq {report : Report κ} (member : report ∈ course.reports) :
      report.shown.history.limit = (course.beginning.history definition).limit := by
    obtain ⟨_, history_eq⟩ := keeps.exists_retaining member
    rw [history_eq]
    rfl
  have within {report : Report κ} (member : report ∈ course.reports) (bound : Nat)
      (limited : (course.beginning.history definition).limit = some bound)
      (few : (course.beginning.history definition).records.length ≤ bound) :
      report.shown.history.records.length ≤ bound := by
    obtain ⟨made, history_eq⟩ := keeps.exists_retaining member
    rw [history_eq]
    exact History.length_retaining_le limited few made
  exact {
    keeps := keeps
    history_eq := keeps.history_eq
    ending_eq := fun member => by
      obtain ⟨page, isLast, history_eq, _⟩ := keeps.ending_eq member
      exact ⟨page, isLast, history_eq⟩
    captured := by
      intro id
      rw [Machine.checkpoint, course.snapshot_eq built, List.getLastD_eq_getLast?,
        List.getLast?_map]
      cases course.reports.getLast? <;> rfl
    limited := fun member => ⟨limit_eq member, within member⟩
    started := by
      intro bound starts isLimited
      have fresh : course.beginning.history definition = .empty (some bound) := by
        rw [starts, Beginning.history, isLimited]
      refine ⟨fun report member => ?_, fun earlier page later split => ?_⟩
      · have limited := limit_eq member
        rw [fresh] at limited
        exact ⟨limited, within member bound (by rw [fresh]; rfl) (by rw [fresh]; simp)⟩
      · rw [keeps.history_eq split, fresh, History.retaining]
        cases (earlier ++ [page]).filterMap Page.record <;> simp [History.trim]
    resumed := by
      intro checkpoint resumes report member
      have limited := limit_eq member
      rwa [resumes] at limited }

/-! ## Examples -/

open Run (crossing crossingDraft midnight)

/-- A machine that is told to keep one transition. -/
def forgetfulDraft : MachineDraft String String Unit :=
  { crossingDraft [] with settings := Settings.standard.withHistoryLimit (some 1) }

/-- What the draft describes. -/
def forgetful : Definition String String Unit :=
  { crossing [] with settings := forgetfulDraft.settings }

/-- A course in which the transition is taken three times. -/
def forgetting : Course forgetful :=
  ofStart forgetful midnight ()
    (List.replicate 3 (.operation (.fire (.new .nil "cross"))) ++
      List.replicate 50 (.operation .advance))

/-- Every time the last record takes the place of the one before. -/
theorem retains_forgetting :
    forgetfulDraft.build = .ok forgetful ∧
      forgetting.reports.map (fun report => report.shown.history.records.map Record.sequence) =
        [[], [1], [2], [3]] ∧
      ∃ pages ending, forgetting.Retains pages ending := by
  have built : forgetfulDraft.build = .ok forgetful := by cbv
  exact ⟨built, by cbv, (retains built).2 forgetting⟩

/-- A checkpoint of a machine that keeps more transitions, after two of them. -/
def wellTraveled : Checkpoint String :=
  (((Machine.new (crossing []) midnight ()).begin .start).2.perform
    [.fire (.new .nil "cross"), .advance, .fire (.new .nil "cross"), .advance]).checkpoint .nil

/-- The checkpoint stands for a configuration. -/
theorem configurationOf_wellTraveled :
    Machine.configurationOf forgetful.graph wellTraveled =
      .ok ⟨#[true, true, false, false, true]⟩ := by
  cbv

/-- A course of the same machine that begins with the checkpoint. The transition is taken
twice. -/
def remembering : Course forgetful :=
  ofRestored midnight () configurationOf_wellTraveled
    (List.replicate 2 (.operation (.fire (.new .nil "cross"))) ++
      List.replicate 50 (.operation .advance))

/-- The machine is told to keep one transition, and shows two, three and four of them. -/
theorem exceeds_limit_remembering :
    forgetful.settings.historyLimit = some 1 ∧
      remembering.beginning = .restore wellTraveled ∧
      ((Machine.new forgetful midnight ()).startFrom wellTraveled true).1 = .ok () ∧
      remembering.reports.map (fun report => report.shown.history.records.map Record.sequence) =
        [[1, 2], [1, 2, 3], [1, 2, 3, 4]] := by
  exact ⟨rfl, rfl, by cbv, by cbv⟩

end Course
end Statechart
