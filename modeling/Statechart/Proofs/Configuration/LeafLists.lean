import Mathlib.Data.List.Nodup
import Statechart.Proofs.Configuration.Restored

/-!
# Lists of leaves

A list of states holds the leaves of a consistent configuration if the states above the
list fill no region twice and no listed state lies above another one. There is one such
configuration then, and it is the one that is restored from the list. Its leaves come in
the depth-first order, whatever the order of the list.
-/

namespace Statechart

variable {κ : Type} {graph : Graph κ}

/-! ## The depth-first order holds no state twice -/

namespace Graph

/-- Two regions of a state have no child in common. -/
theorem IsForest.nodup_childrenOf
    (forest : graph.IsForest)
    (state : Nat) :
    (graph.childrenOf state).Nodup := by
  rw [childrenOf, List.nodup_flatMap]
  refine ⟨fun region member => forest.children_nodup member, ?_⟩
  rw [List.pairwise_iff_getElem]
  intro first second firstInside secondInside earlier child firstListed secondListed
  have inFirst := ((forest.mem_children_iff (List.getElem?_eq_getElem firstInside)).mp
    firstListed).2
  have inSecond := ((forest.mem_children_iff (List.getElem?_eq_getElem secondInside)).mp
    secondListed).2
  exact absurd (inFirst.symm.trans inSecond) (Nat.ne_of_lt earlier)

/-- A bounded descent stays within its start. -/
theorem IsForest.within_of_mem_preorderWithin
    (forest : graph.IsForest)
    {bound state other : Nat}
    (met : other ∈ graph.preorderWithin bound state) :
    graph.Within other state := by
  induction bound generalizing state with
  | zero => contradiction
  | succ bound inductionHypothesis =>
      rw [preorderWithin, List.mem_cons, List.mem_flatMap] at met
      obtain rfl | ⟨child, listed, met⟩ := met
      · exact forest.within_refl other
      · exact forest.within_trans (inductionHypothesis met)
          (forest.within_parent (forest.mem_childrenOf_iff.mp listed))

/-- A descent meets no state twice. -/
theorem IsForest.nodup_preorderWithin
    (forest : graph.IsForest)
    (bound state : Nat) :
    (graph.preorderWithin bound state).Nodup := by
  induction bound generalizing state with
  | zero => exact List.nodup_nil
  | succ bound inductionHypothesis =>
      rw [preorderWithin, List.nodup_cons, List.nodup_flatMap]
      refine ⟨?_, fun child _ => inductionHypothesis child, ?_⟩
      · intro met
        obtain ⟨child, listed, met⟩ := List.mem_flatMap.mp met
        exact forest.not_within_child (forest.mem_childrenOf_iff.mp listed)
          (forest.within_of_mem_preorderWithin met)
      · refine List.Pairwise.imp_of_mem ?_ (forest.nodup_childrenOf state)
        intro first second firstListed secondListed different other metFirst metSecond
        exact different (forest.eq_of_common_within (forest.mem_childrenOf_iff.mp firstListed)
          (forest.mem_childrenOf_iff.mp secondListed)
          (forest.within_of_mem_preorderWithin metFirst)
          (forest.within_of_mem_preorderWithin metSecond))

/-- The depth-first order holds no state twice. -/
theorem IsForest.nodup_preorder (forest : graph.IsForest) : graph.preorder.Nodup := by
  rw [preorder, List.nodup_flatMap]
  refine ⟨fun root _ => forest.nodup_preorderWithin _ root, ?_⟩
  refine List.Pairwise.imp_of_mem ?_ forest.roots_nodup
  intro first second firstListed secondListed different state metFirst metSecond
  have firstRoot := forest.rootOf_eq_iff.mpr
    ⟨forest.within_of_mem_preorderWithin metFirst, (forest.mem_roots_iff.mp firstListed).2⟩
  have secondRoot := forest.rootOf_eq_iff.mpr
    ⟨forest.within_of_mem_preorderWithin metSecond, (forest.mem_roots_iff.mp secondListed).2⟩
  exact different (firstRoot.symm.trans secondRoot)

end Graph

namespace Configuration

variable {configuration : Configuration}

/-! ## Lists that can be restored -/

/-- A configuration is consistent and has exactly the listed leaves. -/
structure HasLeaves
    (graph : Graph κ)
    (listed : List Nat)
    (configuration : Configuration) : Prop where
  /-- The configuration is consistent. -/
  consistent : configuration.IsConsistent graph
  /-- Its leaves are the listed states. -/
  mem_leaves_iff {state : Nat} : state ∈ configuration.leaves graph ↔ state ∈ listed

/-- Together with everything above them the listed states fill no region twice, and none
of them lies above another. -/
structure IsLeafList (graph : Graph κ) (listed : List Nat) : Prop where
  /-- At most one child in each region lies at or above a listed state. -/
  child_unique {state first second : Nat} {region : Region} :
    region ∈ graph.regionsOf state → first ∈ region.children → second ∈ region.children →
      (∃ leaf ∈ listed, graph.Within leaf first) →
        (∃ leaf ∈ listed, graph.Within leaf second) → first = second
  /-- No listed state lies above another. -/
  none_above {lower upper : Nat} :
    lower ∈ listed → upper ∈ listed → graph.Within lower upper → lower = upper

section Restored

variable (forest : graph.IsForest) {listed : List Nat}

include forest

/-- The leaves of a consistent configuration satisfy the conditions on lists. -/
theorem HasLeaves.isLeafList (hasLeaves : configuration.HasLeaves graph listed) :
    IsLeafList graph listed := by
  obtain ⟨consistent, same⟩ := hasLeaves
  have isLeaf {state : Nat} (member : state ∈ listed) :
      configuration.isLeaf graph state = true :=
    (Configuration.mem_leaves_iff forest consistent.flags_size).mp (same.mpr member)
  have active_above {state : Nat} (met : ∃ leaf ∈ listed, graph.Within leaf state) :
      configuration.isActive state = true := by
    obtain ⟨leaf, member, within⟩ := met
    exact consistent.active_of_within forest ((isLeaf_iff forest).mp (isLeaf member)).1 within
  exact {
    child_unique := fun member firstListed secondListed firstMet secondMet =>
      consistent.child_unique member firstListed secondListed (active_above firstMet)
        (active_above secondMet)
    none_above := by
      intro lower upper lowerMember upperMember within
      by_contra different
      -- The branch from the upper state towards the lower one would be active.
      obtain ⟨branch, below, branchWithin⟩ := forest.exists_branch within different
      have inactive := ((isLeaf_iff forest).mp (isLeaf upperMember)).2 branch below
      rw [active_above ⟨lower, lowerMember, branchWithin⟩] at inactive
      contradiction }

/-- A list that satisfies the conditions can be restored. -/
theorem ofLeaves_of_isLeafList
    (inside : ∀ state ∈ listed, state < graph.size)
    (isLeafList : IsLeafList graph listed) :
    ofLeaves graph listed = .ok (above graph listed) := by
  refine ofLeaves_eq_ok_iff.mpr ⟨rfl, fun state _ => ?_, fun state member => ?_⟩
  · by_cases active : (above graph listed).isActive state = true
    · rw [isConflicted_eq_false_iff forest active]
      intro region member first firstListed second secondListed firstActive secondActive
      exact isLeafList.child_unique member firstListed secondListed
        (isActive_above_iff.mp firstActive).2 (isActive_above_iff.mp secondActive).2
    · simp [isConflicted, active]
  · rw [Configuration.mem_leaves_iff forest (flags_size_above graph listed), isLeaf_iff forest]
    refine ⟨isActive_above_iff.mpr
      ⟨inside state member, state, member, forest.within_refl state⟩, fun child below => ?_⟩
    rw [← Bool.not_eq_true, isActive_above_iff]
    rintro ⟨_, leaf, listedLeaf, within⟩
    have same := isLeafList.none_above listedLeaf member (forest.within_trans within
      (forest.within_parent below))
    rw [same] at within
    exact forest.not_within_child below within

/-- What is restored from a list has exactly the listed leaves. -/
theorem hasLeaves_of_ofLeaves (restored : ofLeaves graph listed = .ok configuration) :
    configuration.HasLeaves graph listed where
  consistent := isConsistent_of_ofLeaves forest restored
  mem_leaves_iff := by
    intro state
    have consistent := isConsistent_of_ofLeaves forest restored
    obtain ⟨rfl, _, allLeaves⟩ := ofLeaves_eq_ok_iff.mp restored
    refine ⟨fun member => ?_, allLeaves state⟩
    -- An active state lies at or above a listed one, and a leaf lies above no other leaf.
    rw [Configuration.mem_leaves_iff forest consistent.flags_size] at member
    obtain ⟨_, leaf, listedLeaf, within⟩ :=
      isActive_above_iff.mp ((isLeaf_iff forest).mp member).1
    have own : (above graph listed).HasLeaves graph ((above graph listed).leaves graph) :=
      ⟨consistent, Iff.rfl⟩
    rw [← (own.isLeafList forest).none_above (allLeaves leaf listedLeaf)
      ((Configuration.mem_leaves_iff forest consistent.flags_size).mpr member) within]
    exact listedLeaf

/-- What a list is restored to is the consistent configuration with the listed leaves. -/
theorem ofLeaves_eq_ok_iff_hasLeaves (inside : ∀ state ∈ listed, state < graph.size) :
    ofLeaves graph listed = .ok configuration ↔ configuration.HasLeaves graph listed := by
  constructor
  · exact hasLeaves_of_ofLeaves forest
  · intro hasLeaves
    rw [hasLeaves.consistent.eq_above forest fun _ => hasLeaves.mem_leaves_iff]
    exact ofLeaves_of_isLeafList forest inside (hasLeaves.isLeafList forest)

omit forest in
/-- What rules a list out is a state. -/
theorem lt_size_of_ofLeaves_eq_error
    (inside : ∀ state ∈ listed, state < graph.size)
    {state : Nat}
    (refused : ofLeaves graph listed = .error state) :
    state < graph.size := by
  simp only [ofLeaves] at refused
  split at refused
  · rename_i conflicted
    cases refused
    exact List.mem_range.mp (List.mem_of_find?_eq_some conflicted)
  · split at refused
    · rename_i other
      cases refused
      exact inside _ (List.mem_of_find?_eq_some other)
    · contradiction

/-- The leaves of a configuration come in the depth-first order. -/
theorem HasLeaves.leaves_eq (hasLeaves : configuration.HasLeaves graph listed) :
    configuration.leaves graph = graph.preorder.filter (listed.contains ·) := by
  refine List.filter_congr fun state _ => ?_
  rw [Bool.eq_iff_iff, List.contains_iff_mem, ← hasLeaves.mem_leaves_iff,
    Configuration.mem_leaves_iff forest hasLeaves.consistent.flags_size]

/-- No leaf is listed twice. -/
theorem nodup_leaves (configuration : Configuration) :
    (configuration.leaves graph).Nodup :=
  forest.nodup_preorder.filter _

end Restored

end Configuration
end Statechart
