import Mathlib.Data.List.Induction
import Statechart.History.Basic

/-!
# Histories with a limit

A history is trimmed with every record that is added. In the end the same records are kept as
if all of them had been added first and the history had been trimmed once. This holds of every
version on the way, also when the history had more records than its limit allows; the history
itself is the first version and stays as it was.
-/

namespace Statechart
namespace History

variable {κ : Type}

/-- The records that are kept are the last ones. -/
theorem trim_isSuffix (limit : Option Nat) (records : List (Record κ)) :
    trim limit records <:+ records := by
  cases limit with
  | none => exact List.suffix_rfl
  | some bound => exact List.drop_suffix _ _

/-- As many records are kept as the limit allows. -/
theorem length_trim (bound : Nat) (records : List (Record κ)) :
    (trim (some bound) records).length = min bound records.length := by
  rw [trim, List.length_drop]
  omega

/-- Trimming before more records are added makes no difference to what is kept. -/
theorem trim_trim_append (limit : Option Nat) (earlier later : List (Record κ)) :
    trim limit (trim limit earlier ++ later) = trim limit (earlier ++ later) := by
  cases limit with
  | none => rfl
  | some bound =>
      have dropped : earlier.length - bound ≤ earlier.length := Nat.sub_le _ _
      rw [trim, trim, trim, ← List.drop_append_of_le_length dropped, List.drop_drop,
        List.length_drop, List.length_append]
      congr 1
      omega

/-- Adding records keeps the limit. -/
theorem limit_foldl_record (entries : List (Record κ)) (history : History κ) :
    (entries.foldl record history).limit = history.limit := by
  induction entries generalizing history with
  | nil => rfl
  | cons entry entries inductionHypothesis => exact inductionHypothesis _

/-- After some records have been added the last ones are kept of all. -/
theorem records_foldl_record
    {entries : List (Record κ)}
    (some : entries ≠ [])
    (history : History κ) :
    (entries.foldl record history).records =
      trim history.limit (history.records ++ entries) := by
  induction entries using List.reverseRecOn with
  | nil => contradiction
  | append_singleton entries entry inductionHypothesis =>
      rw [List.foldl_append, List.foldl_cons, List.foldl_nil, records_record,
        limit_foldl_record]
      by_cases first : entries = []
      · rw [first]
        rfl
      · rw [inductionHypothesis first, trim_trim_append, List.append_assoc]

/-! ## Versions -/

/-- The history and what it becomes with one more record after the other. -/
def versions (history : History κ) (entries : List (Record κ)) : List (History κ) :=
  entries.scanl record history

/-- Each version is made of the records up to it. -/
theorem getElem?_versions
    {entries : List (Record κ)}
    {count : Nat}
    (reached : count ≤ entries.length)
    (history : History κ) :
    (history.versions entries)[count]? = some ((entries.take count).foldl record history) := by
  rw [versions, List.getElem?_scanl, if_pos reached]

/-- More records only add versions. -/
theorem versions_isPrefix (history : History κ) (entries later : List (Record κ)) :
    history.versions entries <+: history.versions (entries ++ later) := by
  rw [versions, versions, List.scanl_append]
  exact List.prefix_append _ _

/-- The history has a limit and holds the last of some records, oldest first: as many of them as
the limit allows, and without one all of them. -/
structure HoldsLatest
    (history : History κ)
    (limit : Option Nat)
    (made : List (Record κ)) : Prop where
  limit_eq : history.limit = limit
  isSuffix : history.records <:+ made
  length_eq : history.records.length = limit.elim made.length fun bound => min bound made.length

/-- Any records at all bring a history within its limit. -/
theorem holdsLatest_foldl_record
    {entries : List (Record κ)}
    (nonempty : entries ≠ [])
    (history : History κ) :
    (entries.foldl record history).HoldsLatest history.limit (history.records ++ entries) where
  limit_eq := limit_foldl_record entries history
  isSuffix := by
    rw [records_foldl_record nonempty]
    exact trim_isSuffix _ _
  length_eq := by
    rw [records_foldl_record nonempty]
    cases history.limit with
    | none => rfl
    | some bound => exact length_trim bound _

/-- The path starts with the leaves before the first record and goes on with the leaves after
each of them. Without records there is none. -/
structure ShowsPath (history : History κ) : Prop where
  path_nil : history.records = [] → history.path = []
  path_cons {first : Record κ} {others : List (Record κ)} :
    history.records = first :: others →
      history.path = first.before :: history.records.map Record.after
  length_path : history.records ≠ [] → history.path.length = history.records.length + 1

theorem showsPath (history : History κ) : history.ShowsPath where
  path_nil nothing := by rw [path, nothing]
  path_cons starts := by
    rw [path, starts]
  length_path something := by
    obtain ⟨first, others, starts⟩ := List.exists_cons_of_ne_nil something
    rw [path, starts]
    simp

/-- What comes of adding records to a history. -/
structure KeepsLatest (history : History κ) (entries : List (Record κ)) : Prop where
  /-- In the end the last of all records are there. -/
  latest : (entries.foldl record history).HoldsLatest history.limit (history.records ++ entries)
  /-- The path leads through them. -/
  showsPath : (entries.foldl record history).ShowsPath
  /-- The first version is the history as it was, within its limit or not. -/
  first : (history.versions entries).head? = some history
  /-- Every later version holds the last of the records that were made up to it. -/
  version {earlier later : List (Record κ)} {entry : Record κ} :
    entries = earlier ++ entry :: later →
      ∃ version, (history.versions entries)[earlier.length + 1]? = some version ∧
        version.HoldsLatest history.limit (history.records ++ (earlier ++ [entry]))
  /-- Further records leave all these versions as they are. -/
  unchanged (later : List (Record κ)) :
    history.versions entries <+: history.versions (entries ++ later)

/-- A history keeps the last records, whatever it held before. -/
theorem keepsLatest
    (history : History κ)
    {entries : List (Record κ)}
    (nonempty : entries ≠ []) :
    history.KeepsLatest entries where
  latest := holdsLatest_foldl_record nonempty history
  showsPath := History.showsPath _
  first := by
    rw [List.head?_eq_getElem?, getElem?_versions (Nat.zero_le _)]
    rfl
  version := by
    rintro earlier later entry rfl
    have reached : earlier.length + 1 ≤ (earlier ++ entry :: later).length := by simp
    refine ⟨_, getElem?_versions reached history, ?_⟩
    rw [List.take_length_add_append]
    exact holdsLatest_foldl_record (by simp) history
  unchanged := versions_isPrefix history entries

/-! ## An example -/

/-- A moment on a spring morning. -/
def springMorning : Timestamp :=
  ⟨⟨2024, 5, 17, by decide, by decide, by decide⟩, 29700, 25, by decide, by decide, by decide⟩

/-- The step from a number to the next one. -/
def walk (number : Nat) : Record Nat :=
  ⟨[number], [number + 1], "next", .ofNat number, springMorning⟩

/-- A history with more records than its limit allows. -/
def overfull : History Nat :=
  ⟨[walk 1, walk 2, walk 3], some 2⟩

theorem keepsLatest_overfull :
    [walk 4, walk 5] ≠ [] ∧ overfull.KeepsLatest [walk 4, walk 5] ∧
      overfull.versions [walk 4, walk 5] =
        [overfull, ⟨[walk 3, walk 4], some 2⟩, ⟨[walk 4, walk 5], some 2⟩] ∧
      ([walk 4, walk 5].foldl record overfull).path = [[4], [5], [6]] :=
  ⟨by simp, keepsLatest overfull (by simp), by decide, by decide⟩

end History
end Statechart
