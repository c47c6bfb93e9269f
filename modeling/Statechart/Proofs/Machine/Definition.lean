import Mathlib.Data.List.Induction
import Statechart.Machine.Draft
import Statechart.Machine.Execution
import Statechart.Proofs.Configuration.Consistency
import Statechart.Proofs.Graph.Validated

/-!
# Definitions that have been built

The definition of a machine that has been built consists of a forest and of entries
whose ends lie in one tree. The candidates for an event have sources on the way up from
an active leaf, so the source of a selected entry is active.
-/

namespace Statechart

variable {κ τ ω : Type}

/-! ## Tables -/

namespace Table

variable [DecidableEq κ] [StateKey κ] [Inspect τ]

/-- A key that is resolved is that of the state. -/
theorem resolve_eq_ok_iff
    {graph : Graph κ}
    {trigger : τ}
    {key : κ}
    {state : Nat} :
    resolve graph trigger key = .ok state ↔ graph.indexOf? key = some state := by
  unfold resolve
  cases graph.indexOf? key with
  | none => simp
  | some found => simp

/-- What an accepted entry is: its states are those that the transition names, an internal
one stays at its source, and both ends lie in one tree. -/
theorem entryOf_eq_ok
    {graph : Graph κ}
    {transition : Transition κ τ ω}
    {entry : Entry κ τ ω}
    (accepted : entryOf graph transition = .ok entry) :
    ∃ source, graph.indexOf? transition.source = some source ∧
      ((transition.target = none ∧
          entry = ⟨transition, source, none, transition.effectiveKind⟩) ∨
        ∃ key target, transition.target = some key ∧ graph.indexOf? key = some target ∧
          (transition.effectiveKind = .internal → target = source) ∧
          graph.rootOf source = graph.rootOf target ∧
          entry = ⟨transition, source, some target, transition.effectiveKind⟩) := by
  obtain ⟨source, resolved, accepted⟩ := bind_eq_ok.mp accepted
  refine ⟨source, resolve_eq_ok_iff.mp resolved, ?_⟩
  cases target_eq : transition.target with
  | none =>
      rw [target_eq] at accepted
      cases accepted
      exact .inl ⟨rfl, rfl⟩
  | some key =>
      rw [target_eq] at accepted
      obtain ⟨target, targetResolved, accepted⟩ := bind_eq_ok.mp accepted
      split at accepted
      · contradiction
      · rename_i stays
        split at accepted
        · contradiction
        · rename_i sameTree
          cases accepted
          exact .inr ⟨key, target, rfl, resolve_eq_ok_iff.mp targetResolved,
            fun internal => not_not.mp fun different => stays ⟨internal, different⟩,
            not_not.mp sameTree, rfl⟩

/-- An accepted entry has both ends in one tree. -/
theorem rootOf_eq_of_entryOf
    {graph : Graph κ}
    {transition : Transition κ τ ω}
    {entry : Entry κ τ ω}
    (accepted : entryOf graph transition = .ok entry)
    {target : Nat}
    (hasTarget : entry.target = some target) :
    graph.rootOf entry.source = graph.rootOf target := by
  obtain ⟨source, _, ⟨_, rfl⟩ | ⟨_, _, _, _, _, sameTree, rfl⟩⟩ := entryOf_eq_ok accepted
  · contradiction
  · cases hasTarget
    exact sameTree

/-- Every entry of a table that has been built is an accepted one. -/
theorem entryOf_of_mem_build
    {graph : Graph κ}
    {transitions : List (Transition κ τ ω)}
    {table : Table κ τ ω}
    (built : build graph transitions = .ok table)
    {entry : Entry κ τ ω}
    (member : entry ∈ table.entries) :
    ∃ transition ∈ transitions, entryOf graph transition = .ok entry := by
  obtain ⟨_, _, table_eq⟩ := bind_eq_ok.mp built
  cases table_eq
  obtain ⟨transition, listed, accepted⟩ := List.mem_filterMap.mp member
  refine ⟨transition, listed, ?_⟩
  cases outcome : entryOf graph transition with
  | error problem => simp [outcome, Except.toOption] at accepted
  | ok accepted => simp_all [Except.toOption]

omit [DecidableEq κ] [StateKey κ] [Inspect τ] in
/-- Only states at or above the leaves are searched. -/
theorem exists_leaf_of_mem_searchOrder
    {graph : Graph κ}
    {leaves : List Nat}
    {state : Nat}
    (member : state ∈ searchOrder graph leaves) :
    ∃ leaf ∈ leaves, graph.Within leaf state := by
  induction leaves using List.reverseRecOn with
  | nil => contradiction
  | append_singleton leaves leaf inductionHypothesis =>
      rw [searchOrder, List.foldl_append, List.foldl_cons, List.foldl_nil] at member
      rcases List.mem_append.mp member with earlier | new
      · obtain ⟨other, listed, within⟩ := inductionHypothesis earlier
        exact ⟨other, List.mem_append_left _ listed, within⟩
      · exact ⟨leaf, List.mem_append_right _ (List.mem_singleton_self leaf),
          List.takeWhile_subset _ new⟩

end Table

/-! ## Definitions -/

namespace Definition

/-- The graph of a definition is a forest, no transition leads to another tree, and the
queue has places. -/
structure IsWellFormed (definition : Definition κ τ ω) : Prop where
  /-- The graph is a forest. -/
  forest : definition.graph.IsForest
  /-- Both ends of an entry lie in one tree. -/
  sameTree {entry : Entry κ τ ω} {target : Nat} :
    entry ∈ definition.table.entries → entry.target = some target →
      definition.graph.rootOf entry.source = definition.graph.rootOf target
  /-- An event finds a place in an empty queue. -/
  places : definition.settings.queueCapacity ≠ some 0

/-- What has been built is well-formed. -/
theorem isWellFormed_of_build
    [DecidableEq κ]
    [StateKey κ]
    [Inspect τ]
    {draft : MachineDraft κ τ ω}
    {definition : Definition κ τ ω}
    (built : draft.build = .ok definition) :
    definition.IsWellFormed := by
  unfold MachineDraft.build at built
  split at built
  · contradiction
  rename_i places
  obtain ⟨graph, validated, built⟩ := bind_eq_ok.mp built
  obtain ⟨table, tabled, built⟩ := bind_eq_ok.mp built
  cases built
  exact {
    forest := draft.blueprint.isForest_of_validate validated
    sameTree := by
      intro entry target member hasTarget
      obtain ⟨transition, _, accepted⟩ := Table.entryOf_of_mem_build tabled member
      exact Table.rootOf_eq_of_entryOf accepted hasTarget
    places := places }

/-- The roots of what has been built are listed in the order in which they were declared. -/
theorem sorted_roots_of_build
    [DecidableEq κ]
    [StateKey κ]
    [Inspect τ]
    {draft : MachineDraft κ τ ω}
    {definition : Definition κ τ ω}
    (built : draft.build = .ok definition) :
    definition.graph.roots.Pairwise (· < ·) := by
  unfold MachineDraft.build at built
  split at built
  · contradiction
  obtain ⟨graph, validated, built⟩ := bind_eq_ok.mp built
  obtain ⟨table, _, built⟩ := bind_eq_ok.mp built
  cases built
  rw [draft.blueprint.eq_graph_of_validate validated]
  exact draft.blueprint.sorted_roots_graph

/-- The candidates for an event are entries whose source is active. -/
theorem mem_candidatesFrom
    [DecidableEq τ]
    {definition : Definition κ τ ω}
    (wellFormed : definition.IsWellFormed)
    {configuration : Configuration}
    (consistent : configuration.IsConsistent definition.graph)
    {trigger : τ}
    {entry : Entry κ τ ω}
    (member : entry ∈ definition.table.candidatesFrom definition.graph
      (configuration.leaves definition.graph) trigger) :
    entry ∈ definition.table.entries ∧ configuration.isActive entry.source = true := by
  obtain ⟨state, searched, member⟩ := List.mem_flatMap.mp member
  obtain ⟨listed, matching⟩ := List.mem_filter.mp member
  rw [Bool.and_eq_true, beq_iff_eq, beq_iff_eq] at matching
  obtain ⟨leaf, isLeaf, within⟩ := Table.exists_leaf_of_mem_searchOrder searched
  have leafActive : configuration.isActive leaf = true := by
    have leaf := (List.mem_filter.mp isLeaf).2
    rw [Configuration.isLeaf, Bool.and_eq_true] at leaf
    exact leaf.1
  refine ⟨listed, ?_⟩
  rw [matching.1]
  exact consistent.active_of_within wellFormed.forest leafActive within

end Definition
end Statechart
