import Statechart.Machine.Basic
import Statechart.Proofs.Configuration.Restored

/-!
# The configuration of a checkpoint

A checkpoint names the active leaves by their keys. In a forest different states have
different keys, so the keys of the leaves of a consistent configuration stand for that
configuration and for no other.
-/

namespace Statechart

variable {κ : Type} [DecidableEq κ] {graph : Graph κ}

namespace Graph

/-- The keys of some states lead back to these states. -/
theorem IsForest.filterMap_indexOf?_keys
    (forest : graph.IsForest)
    {states : List Nat}
    (inside : ∀ state ∈ states, state < graph.size) :
    (graph.keys states).filterMap graph.indexOf? = states := by
  rw [keys, List.filterMap_filterMap]
  have comes_back : ∀ state ∈ states,
      ((graph.key? state).bind graph.indexOf?) = some state := by
    intro state member
    obtain ⟨key, hasKey⟩ := graph.exists_key (inside state member)
    rw [hasKey, Option.bind_some, forest.indexOf?_eq_some_iff]
    exact hasKey
  rw [List.filterMap_congr comes_back]
  exact List.filterMap_some

end Graph

namespace Machine

variable [StateKey κ]

/-- A checkpoint stands for the configuration with its leaves, provided its keys are all
known. -/
theorem configurationOf_eq_ok_iff
    {checkpoint : Checkpoint κ}
    {configuration : Configuration} :
    configurationOf graph checkpoint = .ok configuration ↔
      (∀ key ∈ checkpoint.active, (graph.indexOf? key).isSome) ∧
        Configuration.ofLeaves graph (checkpoint.active.filterMap graph.indexOf?) =
          .ok configuration := by
  unfold configurationOf
  split
  · rename_i key found
    have unknown := List.find?_some found
    constructor
    · exact fun restored => by contradiction
    · rintro ⟨known, _⟩
      have isKnown := known key (List.mem_of_find?_eq_some found)
      simp_all
  · rename_i found
    have known : ∀ key ∈ checkpoint.active, (graph.indexOf? key).isSome := by
      simpa [Option.isSome_iff_ne_none] using found
    rw [and_iff_right known]
    cases Configuration.ofLeaves graph (checkpoint.active.filterMap graph.indexOf?) with
    | error state => simp [Except.mapError]
    | ok restored => simp [Except.mapError]

/-- What a checkpoint stands for is consistent. -/
theorem isConsistent_of_configurationOf
    (forest : graph.IsForest)
    {checkpoint : Checkpoint κ}
    {configuration : Configuration}
    (restored : configurationOf graph checkpoint = .ok configuration) :
    configuration.IsConsistent graph :=
  Configuration.isConsistent_of_ofLeaves forest (configurationOf_eq_ok_iff.mp restored).2

/-- A checkpoint that names the leaves of a consistent configuration stands for it. -/
theorem configurationOf_leaves
    (forest : graph.IsForest)
    {checkpoint : Checkpoint κ}
    {configuration : Configuration}
    (consistent : configuration.IsConsistent graph)
    (active_eq : checkpoint.active = graph.keys (configuration.leaves graph)) :
    configurationOf graph checkpoint = .ok configuration := by
  have inside : ∀ state ∈ configuration.leaves graph, state < graph.size := by
    intro state member
    exact forest.mem_preorder_iff.mp (List.mem_filter.mp member).1
  rw [configurationOf_eq_ok_iff, active_eq, forest.filterMap_indexOf?_keys inside]
  refine ⟨fun key member => ?_, consistent.ofLeaves_leaves forest⟩
  obtain ⟨state, _, hasKey⟩ := List.mem_filterMap.mp member
  rw [forest.indexOf?_eq_some_iff.mpr hasKey]
  rfl

end Machine
end Statechart
