import Mathlib.Data.List.Induction
import Mathlib.Data.List.Perm.Subperm
import Statechart.Proofs.Machine.Checkpoint
import Statechart.Proofs.Machine.Definition

/-!
# The candidates for an event

The way up from each leaf is searched until it meets a state that has been searched before.
Everything above such a state has been searched as well, so the search visits the states
above the leaves in order, each of them at the place where it is met first. No entry of a
table is a candidate more often than it has been added.
-/

namespace Statechart

variable {κ τ ω : Type}

/-! ## Lists -/

/-- Where nothing is kept behind what is not kept, the kept members come first. -/
theorem takeWhile_eq_filter
    {α : Type}
    {keep : α → Bool}
    {list : List α}
    (closed : list.Pairwise fun earlier later => keep later = true → keep earlier = true) :
    list.takeWhile keep = list.filter keep := by
  induction list with
  | nil => rfl
  | cons first rest inductionHypothesis =>
      obtain ⟨firstClosed, restClosed⟩ := List.pairwise_cons.mp closed
      by_cases kept : keep first = true
      · rw [List.takeWhile_cons_of_pos kept, List.filter_cons_of_pos kept,
          inductionHypothesis restClosed]
      · rw [List.takeWhile_cons_of_neg kept, List.filter_cons_of_neg kept, eq_comm,
          List.filter_eq_nil_iff]
        exact fun later member keptLater => kept (firstClosed later member keptLater)

/-- A list without duplicates stays as it is when they are removed. -/
theorem eraseDups_of_nodup
    {α : Type}
    [BEq α]
    [LawfulBEq α]
    {list : List α}
    (distinct : list.Nodup) :
    list.eraseDups = list := by
  induction list with
  | nil => rfl
  | cons first rest inductionHypothesis =>
      obtain ⟨new, restDistinct⟩ := List.nodup_cons.mp distinct
      have others : rest.filter (fun other => !other == first) = rest := by
        refine List.filter_eq_self.mpr fun other member => ?_
        have different : other ≠ first := fun equal => new (equal ▸ member)
        simp [different]
      rw [List.eraseDups_cons, others, inductionHypothesis restDistinct]

/-- Picking members by distinct keys picks no member twice. -/
theorem flatMap_filter_subperm
    {α : Type}
    (keyOf : α → Nat)
    (list : List α)
    {keys : List Nat}
    (distinct : keys.Nodup) :
    (keys.flatMap fun key => list.filter fun member => keyOf member == key).Subperm list := by
  induction keys generalizing list with
  | nil => exact List.nil_subperm
  | cons key keys inductionHypothesis =>
      obtain ⟨new, restDistinct⟩ := List.nodup_cons.mp distinct
      have elsewhere : (keys.flatMap fun other => list.filter fun member => keyOf member == other) =
          keys.flatMap fun other =>
            (list.filter fun member => !(keyOf member == key)).filter fun member =>
              keyOf member == other := by
        refine List.flatMap_congr fun other member => ?_
        have different : other ≠ key := fun equal => new (equal ▸ member)
        rw [List.filter_filter]
        refine List.filter_congr fun candidate _ => ?_
        by_cases same : keyOf candidate = other
        · simp [same, different]
        · simp [same]
      rw [List.flatMap_cons, elsewhere]
      exact ((List.Subperm.refl _).append (inductionHypothesis _ restDistinct)).trans
        (List.filter_append_perm _ list).subperm

/-! ## The order of the search -/

namespace Table

variable {graph : Graph κ}

/-- The states above some leaves in the order in which they are met first, if the way up
from every leaf is walked to its end. -/
def plainOrder (graph : Graph κ) (leaves : List Nat) : List Nat :=
  (leaves.flatMap graph.chain).eraseDups

theorem mem_plainOrder_iff
    {leaves : List Nat}
    {state : Nat} :
    state ∈ plainOrder graph leaves ↔ ∃ leaf ∈ leaves, graph.Within leaf state := by
  rw [plainOrder, List.mem_eraseDups, List.mem_flatMap]
  rfl

/-- Ending each way up at the first state that has been searched before loses no state. -/
theorem searchOrder_eq_plainOrder
    (forest : graph.IsForest)
    (leaves : List Nat) :
    searchOrder graph leaves = plainOrder graph leaves := by
  induction leaves using List.reverseRecOn with
  | nil => rfl
  | append_singleton leaves leaf inductionHypothesis =>
      -- Everything above a searched state has been searched.
      have closed : (graph.chain leaf).Pairwise fun lower upper =>
          (!(plainOrder graph leaves).contains upper) = true →
            (!(plainOrder graph leaves).contains lower) = true := by
        refine (forest.pairwise_chain leaf).imp fun above unsearched => ?_
        simp only [Bool.not_eq_true', ← Bool.not_eq_true, List.contains_iff_mem] at unsearched ⊢
        intro searched
        obtain ⟨other, member, within⟩ := mem_plainOrder_iff.mp searched
        exact unsearched
          (mem_plainOrder_iff.mpr ⟨other, member, forest.within_trans within above.1⟩)
      have fresh : (graph.chain leaf).removeAll (leaves.flatMap graph.chain) =
          (graph.chain leaf).filter fun state => !(plainOrder graph leaves).contains state := by
        refine List.filter_congr fun state _ => ?_
        rw [plainOrder, Bool.eq_iff_iff]
        simp
      have distinct : ((graph.chain leaf).filter fun state =>
          !(plainOrder graph leaves).contains state).Nodup :=
        (forest.nodup_chain leaf).filter _
      calc searchOrder graph (leaves ++ [leaf])
        _ = searchOrder graph leaves ++ (graph.chain leaf).takeWhile fun state =>
              !(searchOrder graph leaves).contains state := by
          rw [searchOrder, List.foldl_append]
          rfl
        _ = plainOrder graph leaves ++ (graph.chain leaf).filter fun state =>
              !(plainOrder graph leaves).contains state := by
          rw [inductionHypothesis, takeWhile_eq_filter closed]
        _ = plainOrder graph (leaves ++ [leaf]) := by
          rw [plainOrder, plainOrder, List.flatMap_append, List.flatMap_singleton,
            List.eraseDups_append, fresh, eraseDups_of_nodup distinct]
          rfl

/-! ## Candidates -/

section Candidates

variable [DecidableEq τ]

/-- The transitions of the states above some leaves, if every way up is walked to its
end. -/
def plainCandidates
    (graph : Graph κ)
    (table : Table κ τ ω)
    (leaves : List Nat)
    (trigger : τ) : List (Entry κ τ ω) :=
  (plainOrder graph leaves).flatMap fun state => table.entriesFor state trigger

/-- Ending each way up at the first state that has been searched before loses no
candidate. -/
theorem candidatesFrom_eq_plainCandidates
    (forest : graph.IsForest)
    (table : Table κ τ ω)
    (leaves : List Nat)
    (trigger : τ) :
    table.candidatesFrom graph leaves trigger = plainCandidates graph table leaves trigger := by
  rw [candidatesFrom, searchOrder_eq_plainOrder forest, plainCandidates]

/-- No entry is a candidate more often than it has been added. -/
theorem plainCandidates_subperm
    (graph : Graph κ)
    (table : Table κ τ ω)
    (leaves : List Nat)
    (trigger : τ) :
    (plainCandidates graph table leaves trigger).Subperm table.entries := by
  have matching : plainCandidates graph table leaves trigger =
      (plainOrder graph leaves).flatMap fun state =>
        (table.entries.filter fun entry => entry.transition.trigger == trigger).filter
          fun entry => entry.source == state := by
    refine List.flatMap_congr fun state _ => ?_
    rw [entriesFor, List.filter_filter]
  rw [matching]
  exact (flatMap_filter_subperm Entry.source _ (nodup_eraseDups _)).trans
    List.filter_sublist.subperm

/-- The candidates have their sources above the leaves. -/
theorem exists_leaf_of_mem_plainCandidates
    {table : Table κ τ ω}
    {leaves : List Nat}
    {trigger : τ}
    {entry : Entry κ τ ω}
    (member : entry ∈ plainCandidates graph table leaves trigger) :
    ∃ leaf ∈ leaves, graph.Within leaf entry.source := by
  obtain ⟨state, searched, member⟩ := List.mem_flatMap.mp member
  have matching := (List.mem_filter.mp member).2
  rw [Bool.and_eq_true, beq_iff_eq] at matching
  rw [matching.1]
  exact mem_plainOrder_iff.mp searched

end Candidates

/-! ## Accepted entries -/

section Fits

variable [DecidableEq κ] [StateKey κ] [Inspect τ]

/-- An accepted entry holds its transition and the state of its source. -/
theorem source_of_entryOf
    {transition : Transition κ τ ω}
    {entry : Entry κ τ ω}
    (accepted : entryOf graph transition = .ok entry) :
    entry.transition = transition ∧
      graph.indexOf? transition.source = some entry.source := by
  obtain ⟨source, found, ⟨_, rfl⟩ | ⟨_, _, _, _, _, _, rfl⟩⟩ := entryOf_eq_ok accepted
  · exact ⟨rfl, found⟩
  · exact ⟨rfl, found⟩

/-- Every entry of a table has been accepted for a graph. -/
def Fits (graph : Graph κ) (table : Table κ τ ω) : Prop :=
  ∀ entry ∈ table.entries, entryOf graph entry.transition = .ok entry

/-- A table that has been built fits its graph. -/
theorem fits_of_build
    {transitions : List (Transition κ τ ω)}
    {table : Table κ τ ω}
    (built : build graph transitions = .ok table) :
    table.Fits graph := by
  intro entry member
  obtain ⟨transition, _, accepted⟩ := entryOf_of_mem_build built member
  rw [(source_of_entryOf accepted).1]
  exact accepted

/-- An accepted entry names the state of its own transition. -/
theorem nameOf_source_of_entryOf
    (forest : graph.IsForest)
    {transition : Transition κ τ ω}
    {entry : Entry κ τ ω}
    (accepted : entryOf graph transition = .ok entry) :
    graph.nameOf entry.source = StateKey.name transition.source := by
  rw [Graph.nameOf, forest.indexOf?_eq_some_iff.mp (source_of_entryOf accepted).2]
  rfl

end Fits

end Table
end Statechart
