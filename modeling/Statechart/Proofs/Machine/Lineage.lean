import Statechart.Proofs.Configuration.LeafLists
import Statechart.Proofs.History
import Statechart.Proofs.Machine.Pages

/-!
# Machines that go on from one another

A machine can begin with a checkpoint of another machine, and a third one with a checkpoint of
this one. In all that such machines publish the numbers of the records increase, as long as
there are machine words for all events. As long as no step fails every record leads from where
the one before has led, whichever machines have made them.
-/

namespace Statechart

variable {κ : Type}

/-! ## Numbered histories -/

/-- The numbers of the records increase up to a number of events. -/
structure History.IsNumbered (history : History κ) (processed : Nat) : Prop where
  /-- Every record has a greater number than the records before. -/
  increasing :
    history.records.Pairwise fun earlier later => earlier.sequence < later.sequence
  /-- No record has a greater number than the last event. -/
  le_processed {record : Record κ} :
    record ∈ history.records → record.sequence ≤ processed

/-- The records were made of events that come at some places among all events so far. Places
are ordinary numbers, which do not end, and a machine word is known of each. -/
structure History.IsPlaced
    (history : History κ)
    (count : UInt64)
    (places : List Nat)
    (events : Nat) : Prop where
  /-- All events are counted. -/
  count_eq : count = UInt64.ofNat events
  /-- Each record has the number of its event. -/
  numbers_eq : history.records.map Record.number = places.map UInt64.ofNat
  /-- Every record was made of a later event than the records before. -/
  increasing : places.Pairwise (· < ·)
  /-- No record was made of an event to come. -/
  le_events {place : Nat} : place ∈ places → place ≤ events

/-- The records were made of events one after the other, and there have not been more events
than a given number. -/
def History.IsPlacedWithin (history : History κ) (count : UInt64) (total : Nat) : Prop :=
  ∃ places events, events ≤ total ∧ history.IsPlaced count places events

namespace History

variable {history : History κ} {count : UInt64} {places : List Nat} {events total : Nat}

/-- Before the first event there are no records. -/
theorem isPlacedWithin_empty (limit : Option Nat) (total : Nat) :
    (empty limit : History κ).IsPlacedWithin 0 total :=
  ⟨[], 0, Nat.zero_le _, ⟨rfl, rfl, .nil, nofun⟩⟩

namespace IsPlaced

variable (placed : history.IsPlaced count places events)

include placed

/-- An event of which no record is made is only counted. -/
theorem counted : history.IsPlaced (count + 1) places (events + 1) where
  count_eq := by rw [placed.count_eq, Word.ofNat_succ]
  numbers_eq := placed.numbers_eq
  increasing := placed.increasing
  le_events member := (placed.le_events member).trans (Nat.le_succ _)

/-- A record is made of the next event. -/
theorem record {entry : Record κ} (number_eq : entry.number = count + 1) :
    ∃ later, (history.record entry).IsPlaced (count + 1) later (events + 1) := by
  have kept := List.suffix_iff_eq_drop.mp (trim_isSuffix history.limit (history.records ++ [entry]))
  generalize (history.records ++ [entry]).length -
    (trim history.limit (history.records ++ [entry])).length = dropped at kept
  have increasing : (places ++ [events + 1]).Pairwise (· < ·) := by
    refine List.pairwise_append.mpr ⟨placed.increasing, List.pairwise_singleton _ _, ?_⟩
    intro place member other isLast
    rw [List.mem_singleton.mp isLast]
    exact Nat.lt_succ_of_le (placed.le_events member)
  refine ⟨(places ++ [events + 1]).drop dropped, {
    count_eq := placed.counted.count_eq
    numbers_eq := ?_
    increasing := increasing.sublist (List.drop_sublist _ _)
    le_events := fun {place} member => ?_ }⟩
  · rw [records_record, kept, List.map_drop, List.map_drop, List.map_append, List.map_append,
      placed.numbers_eq, List.map_singleton, List.map_singleton, number_eq,
      placed.counted.count_eq]
  · rcases List.mem_append.mp ((List.drop_subset _ _) member) with before | last
    · exact (placed.le_events before).trans (Nat.le_succ _)
    · exact (List.mem_singleton.mp last).le

/-- As long as there are machine words for all events the numbers are the places. -/
theorem map_sequence_eq (few : events < Word.bound64) :
    history.records.map Record.sequence = places := by
  calc history.records.map Record.sequence
    _ = (history.records.map Record.number).map UInt64.toNat := by
      rw [List.map_map]
      rfl
    _ = places.map fun place => (UInt64.ofNat place).toNat := by
      rw [placed.numbers_eq, List.map_map]
      rfl
    _ = places.map id := List.map_congr_left fun place member =>
      Word.toNat_ofNat ((placed.le_events member).trans_lt few)
    _ = places := List.map_id _

/-- As long as there are machine words for all events the numbers increase. -/
theorem isNumbered (few : events < Word.bound64) : history.IsNumbered count.toNat where
  increasing := List.pairwise_map.mp (placed.map_sequence_eq few ▸ placed.increasing)
  le_processed member := by
    rw [placed.count_eq, Word.toNat_ofNat few]
    exact placed.le_events (placed.map_sequence_eq few ▸ List.mem_map_of_mem member)

end IsPlaced

/-- There may have been more events. -/
theorem IsPlacedWithin.of_le
    (placed : history.IsPlacedWithin count total)
    {more : Nat}
    (notLess : total ≤ more) :
    history.IsPlacedWithin count more := by
  obtain ⟨places, events, within, placed⟩ := placed
  exact ⟨places, events, within.trans notLess, placed⟩

/-- As long as there are machine words for all events the numbers increase. -/
theorem IsPlacedWithin.isNumbered
    (placed : history.IsPlacedWithin count total)
    (few : total < Word.bound64) :
    history.IsNumbered count.toNat := by
  obtain ⟨_, _, within, placed⟩ := placed
  exact placed.isNumbered (within.trans_lt few)

end History

namespace Page

variable {alike : List κ → List κ → Prop}

/-- A page that is written on from another one shows at most one event more. -/
theorem Continues.isPlacedWithin
    {earlier later : Page κ}
    (continues : earlier.Continues alike later)
    (isRight : later.IsRight)
    {total : Nat}
    (placed : earlier.shown.history.IsPlacedWithin earlier.shown.metadata.count total) :
    later.shown.history.IsPlacedWithin later.shown.metadata.count (total + 1) := by
  obtain ⟨places, events, within, placed⟩ := placed
  rw [continues.history_eq]
  cases recorded : later.record with
  | none =>
      rcases continues.count_cases with same | next
      · rw [same]
        exact ⟨places, events, within.trans (Nat.le_succ _), placed⟩
      · rw [next]
        exact ⟨places, events + 1, Nat.succ_le_succ within, placed.counted⟩
  | some record =>
      have next := continues.count_eq (by rw [recorded]; rfl)
      obtain ⟨later, placed⟩ := placed.record ((isRight.number_eq recorded).trans next)
      rw [next]
      exact ⟨later, events + 1, Nat.succ_le_succ within, placed⟩

/-- On pages that are written on from one another there are at most as many events more. -/
theorem isPlacedWithin_of_isChain
    {first : Page κ}
    {pages : List (Page κ)}
    (continues : (first :: pages).IsChain (Continues alike))
    (right : ∀ page ∈ pages, page.IsRight)
    {total : Nat}
    (placed : first.shown.history.IsPlacedWithin first.shown.metadata.count total) :
    ∀ page ∈ first :: pages,
      page.shown.history.IsPlacedWithin page.shown.metadata.count (total + pages.length) := by
  induction pages generalizing first total with
  | nil =>
      intro page member
      rw [List.mem_singleton.mp member]
      exact placed
  | cons second pages inductionHypothesis =>
      obtain ⟨step, continues⟩ := List.isChain_cons_cons.mp continues
      have next := step.isPlacedWithin (right second List.mem_cons_self) placed
      intro page member
      rcases List.mem_cons.mp member with rfl | later
      · exact placed.of_le (Nat.le_add_right _ _)
      · have reached := inductionHypothesis continues
          (fun page member => right page (List.mem_cons_of_mem _ member)) next page later
        exact reached.of_le (by rw [List.length_cons]; omega)

/-! ## Stretches of pages -/

/-- The records of some pages lead from one to the next, and up to the leaves that are shown
last. -/
structure Lead (alike : List κ → List κ → Prop) (pages : List (Page κ)) : Prop where
  /-- Each record leads from the leaves to which the record before has led. -/
  chain :
    (pages.filterMap Page.record).IsChain fun earlier later => alike earlier.after later.before
  /-- The last record leads to the leaves on the last page. -/
  last {record : Record κ} {page : Page κ} :
    (pages.filterMap Page.record).getLast? = some record → pages.getLast? = some page →
      alike record.after page.shown.active

/-- Where nothing has failed the records lead through the pages. -/
theorem lead_of_isChain
    (equivalence : Equivalence alike)
    {pages : List (Page κ)}
    (right : ∀ page ∈ pages, page.IsRight)
    (continues : pages.IsChain (Continues alike))
    (unfailed : ∀ page ∈ pages, page.report.isFailed = false) :
    Lead alike pages := by
  induction pages using List.reverseRecOn with
  | nil => exact ⟨.nil, nofun⟩
  | append_singleton pages page inductionHypothesis =>
      obtain ⟨earlier, _, step⟩ := List.isChain_append.mp continues
      have lead := inductionHypothesis
        (fun other member => right other (List.mem_append_left _ member)) earlier
        (fun other member => unfailed other (List.mem_append_left _ member))
      have isRight := right page List.mem_concat_self
      -- Whatever was recorded last has led to the leaves from which the page goes on.
      have reaches {record : Record κ}
          (isLast : (pages.filterMap Page.record).getLast? = some record) :
          ∃ previous ∈ pages.getLast?, previous.Continues alike page ∧
            alike record.after previous.shown.active := by
        have some : pages ≠ [] := by
          rintro rfl
          contradiction
        have isPrevious := List.getLast?_eq_some_getLast some
        exact ⟨_, isPrevious, step _ isPrevious page rfl, lead.last isLast isPrevious⟩
      cases recorded : page.record with
      | none =>
          have same : (pages ++ [page]).filterMap Page.record = pages.filterMap Page.record := by
            simp [recorded]
          constructor
          · rw [same]
            exact lead.chain
          · intro record other isLast isPage
            rw [same] at isLast
            obtain rfl : page = other := by simpa using isPage
            obtain ⟨_, _, continues, reached⟩ := reaches isLast
            exact equivalence.trans reached
              (continues.active_alike recorded (unfailed page List.mem_concat_self))
      | some record =>
          have more : (pages ++ [page]).filterMap Page.record =
              pages.filterMap Page.record ++ [record] := by
            simp [recorded]
          constructor
          · rw [more]
            refine List.isChain_append.mpr
              ⟨lead.chain, .singleton _, fun before isLast other isFirst => ?_⟩
            obtain rfl : record = other := by simpa using isFirst
            obtain ⟨_, _, continues, reached⟩ := reaches isLast
            exact equivalence.trans reached (continues.before_alike recorded)
          · intro other last isLast isPage
            obtain rfl : page = last := by simpa using isPage
            rw [more, List.getLast?_concat, Option.some.injEq] at isLast
            rw [← isLast, isRight.after_eq recorded]
            exact equivalence.refl _

end Page

/-! ## Leaves in another order -/

/-- Two lists name the same leaves. Where the order of the states is given they are the same
list. -/
def SameLeaves (ordered : Prop) (first second : List κ) : Prop :=
  first.Perm second ∧ (ordered → first = second)

theorem equivalence_sameLeaves (ordered : Prop) :
    Equivalence (SameLeaves ordered : List κ → List κ → Prop) where
  refl leaves := ⟨.refl leaves, fun _ => rfl⟩
  symm same := ⟨same.1.symm, fun isOrdered => (same.2 isOrdered).symm⟩
  trans first second :=
    ⟨first.1.trans second.1, fun isOrdered => (first.2 isOrdered).trans (second.2 isOrdered)⟩

/-- Pages with the same list of leaves are written on from one another in this sense too. -/
theorem Page.Continues.sameLeaves
    {earlier later : Page κ}
    (continues : earlier.Continues Eq later)
    (ordered : Prop) :
    earlier.Continues (SameLeaves ordered) later :=
  { continues with
    before_alike := fun recorded =>
      continues.before_alike recorded ▸ (equivalence_sameLeaves ordered).refl _
    active_alike := fun unrecorded unfailed =>
      continues.active_alike unrecorded unfailed ▸ (equivalence_sameLeaves ordered).refl _ }

namespace Graph

variable {graph : Graph κ} (forest : graph.IsForest)

include forest

/-- The states with some different keys are different. -/
theorem IsForest.nodup_filterMap_indexOf?
    [DecidableEq κ]
    {keys : List κ}
    (distinct : keys.Nodup) :
    (keys.filterMap graph.indexOf?).Nodup := by
  refine distinct.filterMap fun first second state isFirst isSecond => ?_
  have firstKey := forest.indexOf?_eq_some_iff.mp isFirst
  have secondKey := forest.indexOf?_eq_some_iff.mp isSecond
  exact Option.some.inj (firstKey.symm.trans secondKey)

/-- The states with some known keys lead back to the keys. -/
theorem IsForest.keys_filterMap_indexOf?
    [DecidableEq κ]
    {keys : List κ}
    (known : ∀ key ∈ keys, (graph.indexOf? key).isSome) :
    graph.keys (keys.filterMap graph.indexOf?) = keys := by
  rw [Graph.keys, List.filterMap_filterMap]
  have comes_back : ∀ key ∈ keys, ((graph.indexOf? key).bind graph.key?) = some key := by
    intro key member
    obtain ⟨state, found⟩ := Option.isSome_iff_exists.mp (known key member)
    rw [found, Option.bind_some]
    exact forest.indexOf?_eq_some_iff.mp found
  rw [List.filterMap_congr comes_back]
  exact List.filterMap_some

end Graph

section Restored

variable [DecidableEq κ] [StateKey κ] {graph : Graph κ} {checkpoint : Checkpoint κ}

/-- A configuration that stands for different leaves has exactly these, in some order. -/
theorem Machine.keys_leaves_perm_active
    (forest : graph.IsForest)
    {configuration : Configuration}
    (restored : configurationOf graph checkpoint = .ok configuration)
    (distinct : checkpoint.active.Nodup) :
    (graph.keys (configuration.leaves graph)).Perm checkpoint.active := by
  obtain ⟨known, isRestored⟩ := configurationOf_eq_ok_iff.mp restored
  have hasLeaves := Configuration.hasLeaves_of_ofLeaves forest isRestored
  have sameStates : (configuration.leaves graph).Perm
      (checkpoint.active.filterMap graph.indexOf?) :=
    (List.perm_ext_iff_of_nodup (Configuration.nodup_leaves forest configuration)
      (forest.nodup_filterMap_indexOf? distinct)).mpr fun _ => hasLeaves.mem_leaves_iff
  have sameKeys : (graph.keys (configuration.leaves graph)).Perm
      (graph.keys (checkpoint.active.filterMap graph.indexOf?)) :=
    sameStates.filterMap _
  rwa [forest.keys_filterMap_indexOf? known] at sameKeys

end Restored

/-! ## One machine -/

section Courses

variable
  {τ ω : Type}
  [DecidableEq κ]
  [StateKey κ]
  [DecidableEq τ]
  [Inspect τ]
  {definition : Definition κ τ ω}
  {course : Course definition}
  {pages : List (Page κ)}
  {ending : List (Report κ)}

namespace Course
namespace Keeps

/-- A machine that begins with the records of some events shows those of at most as many events
more as it has begun. -/
theorem isPlacedWithin
    (keeps : course.Keeps pages ending)
    {total : Nat}
    (placed :
      (course.beginning.history definition).IsPlacedWithin course.beginning.base total)
    {report : Report κ}
    (member : report ∈ course.reports) :
    report.shown.history.IsPlacedWithin report.shown.metadata.count
      (total + course.scene.machine.session.begun.length) := by
  have onPages : ∀ page ∈ pages,
      page.shown.history.IsPlacedWithin page.shown.metadata.count
        (total + course.scene.machine.session.begun.length) := by
    intro page member
    cases pages with
    | nil => contradiction
    | cons first pages =>
        obtain ⟨_, history_eq, count_eq⟩ := keeps.first rfl
        rw [← history_eq, ← count_eq] at placed
        have reached := Page.isPlacedWithin_of_isChain keeps.continues
          (fun page member => keeps.right (List.mem_cons_of_mem _ member)) placed page member
        have few := keeps.length_le
        exact reached.of_le (by rw [List.length_cons] at few; omega)
  rw [keeps.reports_eq, List.mem_append] at member
  rcases member with onPage | atEnd
  · obtain ⟨page, listed, rfl⟩ := List.mem_map.mp onPage
    exact onPages page listed
  · obtain ⟨page, isLast, history_eq, metadata_eq⟩ := keeps.ending_eq atEnd
    rw [history_eq, metadata_eq]
    exact onPages page (List.mem_of_getLast? isLast)

/-- A machine that has not been told to stop shows what is on the last page. -/
theorem exists_current
    (keeps : course.Keeps pages ending)
    {draft : MachineDraft κ τ ω}
    (built : draft.build = .ok definition)
    (published : course.reports ≠ [])
    (notTold : course.scene.told = false) :
    ∃ page, pages.getLast? = some page ∧ page.shown = course.scene.machine.snapshot := by
  have unended : ending = [] := by
    by_contra some
    exact absurd (notTold.symm.trans (keeps.told_of_ending some)) nofun
  have reports_eq := keeps.reports_eq
  rw [unended, List.append_nil] at reports_eq
  have some : pages ≠ [] := by
    rintro rfl
    exact published reports_eq
  refine ⟨pages.getLast some, List.getLast?_eq_some_getLast some, ?_⟩
  rw [course.snapshot_eq built, reports_eq, List.map_map, List.getLastD_eq_getLast?,
    List.getLast?_map, List.getLast?_eq_some_getLast some]
  rfl

end Keeps

/-- A machine that begins with the records of some events has those of at most as many events
more as it has begun, at any time. -/
theorem isPlacedWithin_snapshot
    {draft : MachineDraft κ τ ω}
    (built : draft.build = .ok definition)
    {total : Nat}
    (placed :
      (course.beginning.history definition).IsPlacedWithin course.beginning.base total) :
    course.scene.machine.snapshot.history.IsPlacedWithin
      course.scene.machine.snapshot.metadata.count
        (total + course.scene.machine.session.begun.length) := by
  obtain ⟨_, _, keeps⟩ := course.exists_keeps built
  rw [course.snapshot_eq built, List.getLastD_eq_getLast?, List.getLast?_map]
  cases isLast : course.reports.getLast? with
  | none => exact History.isPlacedWithin_empty _ _
  | some report => exact keeps.isPlacedWithin placed (List.mem_of_getLast? isLast)

end Course
end Courses

/-! ## Chains of machines -/

section Chains

variable [DecidableEq κ] [StateKey κ]

/-- A machine in a chain of machines. All of them have states with the same kind of keys. -/
structure Link (κ : Type) [DecidableEq κ] [StateKey κ] : Type 1 where
  /-- The triggers of the machine. -/
  τ : Type
  /-- The states of its client. -/
  ω : Type
  [decidableEqTriggers : DecidableEq τ]
  [inspectTriggers : Inspect τ]
  /-- What the machine is built from. -/
  draft : MachineDraft κ τ ω
  /-- What the draft describes. -/
  definition : Definition κ τ ω
  built : draft.build = .ok definition
  /-- What the machine has done. -/
  course : Course definition

namespace Link

attribute [instance] decidableEqTriggers inspectTriggers

/-- The scene of the machine. -/
def scene (link : Link κ) : Scene κ link.τ link.ω :=
  link.course.scene

/-- What the machine shows. -/
def snapshot (link : Link κ) : Snapshot κ :=
  link.scene.machine.snapshot

/-- Everything that the machine has published. -/
def reports (link : Link κ) : List (Report κ) :=
  link.course.reports

/-- The states of the machine. -/
def graph (link : Link κ) : Graph κ :=
  link.definition.graph

/-- How many events some machines have begun. -/
def countBegun (links : List (Link κ)) : Nat :=
  (links.map fun link => link.scene.machine.session.begun.length).sum

theorem countBegun_concat (links : List (Link κ)) (link : Link κ) :
    countBegun (links ++ [link]) =
      countBegun links + link.scene.machine.session.begun.length := by
  rw [countBegun, List.map_append, List.sum_append, List.map_singleton, List.sum_singleton]
  rfl

/-- Each of some machines was begun with a checkpoint that was captured from the one before
while this one was running. A last machine comes after them. -/
inductive Descends : List (Link κ) → Link κ → Prop
  | first (link : Link κ) : Descends [] link
  | resumed
      {ancestors : List (Link κ)}
      {previous link : Link κ}
      (earlier : Descends ancestors previous)
      (running : previous.scene.machine.session.phase = .running)
      (id : Uuid)
      (resumes : link.course.beginning = .restore (previous.scene.machine.checkpoint id)) :
      Descends (ancestors ++ [previous]) link

/-- The machines of a chain have published what stands on some pages, and then something at the
end of the last of them. -/
structure Succession
    (ordered : Prop)
    (ancestors : List (Link κ))
    (link : Link κ)
    (pages : List (Page κ))
    (ending : List (Report κ)) : Prop where
  /-- This is all that the machines have published. -/
  reports_eq : (ancestors ++ [link]).flatMap reports = pages.map Page.report ++ ending
  /-- Only a machine that has been told to stop comes to its end. -/
  told_of_ending : ending ≠ [] → link.scene.told = true
  /-- Every page is right. -/
  right : ∀ page ∈ pages, page.IsRight
  /-- Each page is written on from the one before, also where another machine goes on. -/
  continues : pages.IsChain (Page.Continues (SameLeaves ordered))
  /-- Until it is told to stop, the last machine shows what is on the last page. -/
  current :
    link.reports ≠ [] → link.scene.told = false →
      ∃ page, pages.getLast? = some page ∧ page.shown = link.snapshot

/-- A machine that goes on from another one begins with the page that this one shows. -/
theorem continues_of_resumes
    {ordered : Prop}
    {previous link : Link κ}
    (sameGraph : ordered → previous.graph = link.graph)
    (running : previous.scene.machine.session.phase = .running)
    {id : Uuid}
    (resumes : link.course.beginning = .restore (previous.scene.machine.checkpoint id))
    (published : previous.reports ≠ [])
    {pages : List (Page κ)}
    {ending : List (Report κ)}
    (keeps : link.course.Keeps pages ending)
    {shown first : Page κ}
    (current : shown.shown = previous.snapshot)
    (isFirst : pages.head? = some first) :
    shown.Continues (SameLeaves ordered) first := by
  obtain ⟨_, _, previousKeeps⟩ := previous.course.exists_keeps previous.built
  obtain ⟨_, _, _, unfolds⟩ := previous.course.exists_unfolds_of_begins previous.built
  obtain ⟨page, isLast, page_eq⟩ := previousKeeps.exists_current previous.built published
    (unfolds.not_told_of_running running)
  obtain ⟨captured, consistent, active_eq⟩ :=
    previousKeeps.leaves (List.mem_of_getLast? isLast)
  have previousForest := (Definition.isWellFormed_of_build previous.built).forest
  have forest := (Definition.isWellFormed_of_build link.built).forest
  have checkpoint_eq : (previous.scene.machine.checkpoint id).active =
      previous.graph.keys (captured.leaves previous.graph) :=
    (congrArg Snapshot.active page_eq).symm.trans active_eq
  obtain ⟨unrecorded, history_eq, count_eq⟩ := keeps.first isFirst
  obtain ⟨_, configuration, restored, shows⟩ := keeps.restored resumes isFirst
  rw [resumes] at history_eq count_eq
  exact {
    history_eq := by
      rw [unrecorded, current]
      exact history_eq
    count_cases := by
      rw [count_eq, current]
      exact .inl rfl
    count_eq := by
      rw [unrecorded]
      exact nofun
    before_alike := by
      rw [unrecorded]
      exact nofun
    active_alike := by
      intro _ _
      rw [current, shows]
      constructor
      · refine (Machine.keys_leaves_perm_active forest restored ?_).symm
        rw [checkpoint_eq]
        exact previousForest.nodup_keys (Configuration.nodup_leaves previousForest captured)
      · intro isOrdered
        have same := sameGraph isOrdered
        have restoredAgain := Machine.configurationOf_leaves previousForest consistent checkpoint_eq
        have restored_eq := restored
        rw [← graph, ← same] at restored_eq ⊢
        obtain rfl : captured = configuration :=
          Except.ok.inj (restoredAgain.symm.trans restored_eq)
        exact checkpoint_eq }

namespace Descends

variable {ancestors : List (Link κ)} {link : Link κ} (descends : Descends ancestors link)

include descends

/-- Where the first machine starts every machine begins with the records of events that the
machines before it have begun. -/
theorem isPlacedWithin_beginning
    (starts : ∀ origin ∈ (ancestors ++ [link]).head?, origin.course.beginning = .start) :
    ∀ other ∈ ancestors ++ [link], ∃ before,
      before + other.scene.machine.session.begun.length ≤ countBegun (ancestors ++ [link]) ∧
        (other.course.beginning.history other.definition).IsPlacedWithin
          other.course.beginning.base before := by
  induction descends with
  | first link =>
      intro other member
      rw [List.mem_singleton.mp member, starts link rfl, countBegun_concat]
      exact ⟨0, le_rfl, History.isPlacedWithin_empty _ _⟩
  | @resumed ancestors previous link earlier running id resumes inductionHypothesis =>
      have before := inductionHypothesis (by simpa [List.head?_append] using starts)
      intro other member
      rw [countBegun_concat]
      rcases List.mem_append.mp member with isAncestor | isLast
      · obtain ⟨count, few, placed⟩ := before other isAncestor
        exact ⟨count, few.trans (Nat.le_add_right _ _), placed⟩
      · obtain ⟨count, few, placed⟩ := before previous List.mem_concat_self
        rw [List.mem_singleton.mp isLast, resumes]
        exact ⟨_, le_rfl, (Course.isPlacedWithin_snapshot previous.built placed).of_le few⟩

/-- Where each machine that goes on has published something before another one goes on from it,
the pages of all machines come one after the other. -/
theorem exists_succession
    {ordered : Prop}
    (sameGraph : ordered → ∀ ancestor ∈ ancestors, ancestor.graph = link.graph)
    (published : ∀ ancestor ∈ ancestors.tail, ancestor.reports ≠ []) :
    ∃ pages ending, Succession ordered ancestors link pages ending := by
  induction descends with
  | first link =>
      obtain ⟨pages, ending, keeps⟩ := link.course.exists_keeps link.built
      refine ⟨pages, ending, ?_⟩
      exact {
        reports_eq := by
          rw [List.nil_append, List.flatMap_singleton]
          exact keeps.reports_eq
        told_of_ending := keeps.told_of_ending
        right := fun _ member => keeps.right member
        continues := keeps.continues.imp fun _ _ continues => continues.sameLeaves ordered
        current := keeps.exists_current link.built }
  | @resumed ancestors previous link earlier running id resumes inductionHypothesis =>
      obtain ⟨_, _, _, unfolds⟩ := previous.course.exists_unfolds_of_begins previous.built
      have notTold : previous.scene.told = false := unfolds.not_told_of_running running
      obtain ⟨before, unended, succession⟩ := inductionHypothesis
        (fun isOrdered ancestor member =>
          (sameGraph isOrdered ancestor (List.mem_append_left _ member)).trans
            (sameGraph isOrdered previous List.mem_concat_self).symm)
        (fun ancestor member => published ancestor (by
          cases ancestors with
          | nil => contradiction
          | cons => exact List.mem_append_left _ member))
      obtain rfl : unended = [] := by
        by_contra some
        exact absurd (notTold.symm.trans (succession.told_of_ending some)) nofun
      have before_eq := succession.reports_eq
      rw [List.append_nil] at before_eq
      obtain ⟨pages, ending, keeps⟩ := link.course.exists_keeps link.built
      refine ⟨before ++ pages, ending, ?_⟩
      exact {
        reports_eq := by
          rw [List.flatMap_append, before_eq, List.flatMap_singleton, List.map_append,
            List.append_assoc]
          exact congrArg _ keeps.reports_eq
        told_of_ending := keeps.told_of_ending
        right := by
          intro page member
          rcases List.mem_append.mp member with earlier | later
          · exact succession.right page earlier
          · exact keeps.right later
        continues := by
          refine List.isChain_append.mpr ⟨succession.continues,
            keeps.continues.imp fun _ _ continues => continues.sameLeaves ordered,
            fun shown isLast first isFirst => ?_⟩
          -- The first machine of all need not have published anything. There are no pages then.
          have hasPublished : previous.reports ≠ [] := by
            cases ancestors with
            | nil =>
                rintro nothing
                rw [List.nil_append, List.flatMap_singleton, nothing, eq_comm,
                  List.map_eq_nil_iff] at before_eq
                rw [before_eq] at isLast
                contradiction
            | cons => exact published previous List.mem_concat_self
          obtain ⟨page, isPage, current⟩ := succession.current hasPublished notTold
          obtain rfl : page = shown := Option.some.inj (isPage.symm.trans isLast)
          exact continues_of_resumes (fun isOrdered => sameGraph isOrdered previous
            List.mem_concat_self) running resumes hasPublished keeps current isFirst
        current := by
          intro some notTold
          obtain ⟨page, isLast, current⟩ := keeps.exists_current link.built some notTold
          exact ⟨page, by rw [List.getLast?_append, isLast]; rfl, current⟩ }

/-- In a chain of machines in which the first one starts, all records that are shown were made
of events one after the other, up to the last event processed. As long as there are machine
words for all events that have been begun, the records have increasing numbers, up to the number
of events processed. As long as nothing fails each record
leads from the leaves to which the record before has led, and the last one leads to the leaves
that are shown, also where one machine goes on from another one. A machine that has begun with a
checkpoint must have published this before a third one goes on from it. -/
theorem connects :
    ((∀ origin ∈ (ancestors ++ [link]).head?, origin.course.beginning = .start) →
      ∀ other ∈ ancestors ++ [link], ∀ report ∈ other.reports,
        report.shown.history.IsPlacedWithin report.shown.metadata.count
            (countBegun (ancestors ++ [link])) ∧
          (countBegun (ancestors ++ [link]) < Word.bound64 →
            report.shown.history.IsNumbered report.shown.metadata.processed)) ∧
    ((∀ ancestor ∈ ancestors.tail, ancestor.reports ≠ []) →
      ∃ pages ending,
        Succession (∀ ancestor ∈ ancestors, ancestor.graph = link.graph) ancestors link pages
          ending ∧
        ∀ stretch, stretch <:+: pages → (∀ page ∈ stretch, page.report.isFailed = false) →
          Page.Lead (SameLeaves (∀ ancestor ∈ ancestors, ancestor.graph = link.graph))
            stretch) := by
  constructor
  · intro starts other member report published
    obtain ⟨_, _, keeps⟩ := other.course.exists_keeps other.built
    obtain ⟨before, few, begins⟩ := descends.isPlacedWithin_beginning starts other member
    have placed := (keeps.isPlacedWithin begins published).of_le few
    exact ⟨placed, placed.isNumbered⟩
  · intro published
    obtain ⟨pages, ending, succession⟩ := descends.exists_succession id published
    refine ⟨pages, ending, succession, fun stretch within unfailed => ?_⟩
    have right : ∀ page ∈ stretch, page.IsRight :=
      fun page member => succession.right page (within.subset member)
    obtain ⟨earlier, later, rfl⟩ := within
    exact Page.lead_of_isChain (equivalence_sameLeaves _) right
      succession.continues.left_of_append.right_of_append unfailed

end Descends
end Link
end Chains

/-! ## An example -/

namespace Link

open Run (crossing crossingDraft midnight)

/-- An event that is declined, and one for which the transition is taken. -/
def crossingOnce : List (Move String String Unit) :=
  .operation (.fire (.new .nil "rest")) :: .operation (.fire (.new .nil "cross")) ::
    List.replicate 40 (.operation .advance)

/-- A machine that starts. -/
def settingOut : Link String where
  τ := String
  ω := Unit
  draft := crossingDraft []
  definition := crossing []
  built := by cbv
  course := .ofStart (crossing []) midnight () crossingOnce

/-- A machine that goes on from a checkpoint with the leaves that are active after the
transition. -/
def goingOn
    {checkpoint : Checkpoint String}
    (restored : Machine.configurationOf (crossing []).graph checkpoint =
      .ok ⟨#[true, true, false, false, true]⟩) : Link String where
  τ := String
  ω := Unit
  draft := crossingDraft []
  definition := crossing []
  built := by cbv
  course := .ofRestored midnight () restored crossingOnce

/-- A second machine. -/
def second : Link String :=
  goingOn (show Machine.configurationOf (crossing []).graph
    (settingOut.scene.machine.checkpoint .nil) = _ by cbv)

/-- A third machine. -/
def third : Link String :=
  goingOn (show Machine.configurationOf (crossing []).graph
    (second.scene.machine.checkpoint .nil) = _ by cbv)

/-- Three machines record the transition once each, and the events that are declined leave gaps
in the numbers. -/
theorem Descends.connects_third :
    Descends [settingOut, second] third ∧
      settingOut.course.beginning = .start ∧
      second.reports ≠ [] ∧
      third.reports.map (fun report => report.shown.history.records.map Record.sequence) =
        [[2, 4], [2, 4], [2, 4, 6]] ∧
      countBegun ([settingOut, second] ++ [third]) = 6 ∧
      (∀ report ∈ third.reports,
        report.shown.history.IsPlacedWithin report.shown.metadata.count
            (countBegun ([settingOut, second] ++ [third])) ∧
          report.shown.history.IsNumbered report.shown.metadata.processed) ∧
      ∃ pages ending,
        Succession (∀ ancestor ∈ [settingOut, second], ancestor.graph = third.graph)
          [settingOut, second] third pages ending ∧
        ∀ stretch, stretch <:+: pages → (∀ page ∈ stretch, page.report.isFailed = false) →
          Page.Lead (SameLeaves
            (∀ ancestor ∈ [settingOut, second], ancestor.graph = third.graph)) stretch := by
  have descends : Descends [settingOut, second] third :=
    .resumed (.resumed (.first settingOut) (by cbv) .nil rfl) (by cbv) .nil rfl
  have starts : ∀ origin ∈ ([settingOut, second] ++ [third]).head?,
      origin.course.beginning = .start := by
    rintro _ ⟨⟩
    rfl
  have count_eq : second.reports.length = 2 + 1 := by cbv
  have hasPublished : second.reports ≠ [] := List.ne_nil_of_length_eq_add_one count_eq
  have published : ∀ ancestor ∈ [settingOut, second].tail, ancestor.reports ≠ [] := by
    intro ancestor member
    rwa [List.mem_singleton.mp member]
  have begun_eq : countBegun ([settingOut, second] ++ [third]) = 6 := by decide +kernel
  have few : countBegun ([settingOut, second] ++ [third]) < Word.bound64 := by
    rw [begun_eq]
    decide
  obtain ⟨numbered, lead⟩ := descends.connects
  refine ⟨descends, rfl, hasPublished, by cbv, begun_eq, fun report member => ?_, lead published⟩
  obtain ⟨placed, plain⟩ := numbered starts third List.mem_concat_self report member
  exact ⟨placed, plain few⟩

end Link
end Statechart
