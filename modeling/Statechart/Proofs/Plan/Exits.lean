import Mathlib.Data.List.Basic
import Statechart.Proofs.Configuration.Consistency

/-!
# The states that a plan leaves

Below an active state of a consistent configuration the plan leaves exactly the active
states, each of them once, after everything below it, and region by region.
-/

namespace Statechart

/-- Going through a list is going through its places. -/
theorem flatMap_range_getElem?
    {α β : Type}
    (list : List α)
    (visit : Option α → List β) :
    (List.range list.length).flatMap (fun index => visit list[index]?) =
      list.flatMap (fun member => visit (some member)) := by
  induction list with
  | nil => rfl
  | cons first rest inductionHypothesis =>
      rw [List.length_cons, List.range_succ_eq_map, List.flatMap_cons, List.flatMap_cons,
        List.flatMap_map, ← inductionHypothesis]
      simp

variable {κ : Type} {graph : Graph κ} {configuration : Configuration}

/-- What comes before what when states are left: nothing comes before a state within it,
and states in different regions come in the order of the regions. -/
structure LeftBefore (graph : Graph κ) (earlier later : Nat) : Prop where
  /-- A state is left after the states below it. -/
  not_within : ¬ graph.Within later earlier
  /-- Regions are left in order. -/
  region_le {first second parent : Nat} :
    graph.parentOf first = some parent → graph.parentOf second = some parent →
      graph.Within earlier first → graph.Within later second →
        graph.regionOf first ≤ graph.regionOf second

/-- States below children in different regions are left in the order of the regions. -/
theorem leftBefore_of_branches
    (forest : graph.IsForest)
    {earlier later first second parent : Nat}
    (firstBelow : graph.parentOf first = some parent)
    (secondBelow : graph.parentOf second = some parent)
    (ordered : graph.regionOf first < graph.regionOf second)
    (earlierWithin : graph.Within earlier first)
    (laterWithin : graph.Within later second) :
    LeftBefore graph earlier later where
  not_within := by
    intro within
    have same := forest.eq_of_common_within firstBelow secondBelow
      (forest.within_trans within earlierWithin) laterWithin
    rw [same] at ordered
    exact Nat.lt_irrefl _ ordered
  region_le := by
    intro one other common oneBelow otherBelow earlierOne laterOther
    have earlierCommon := forest.within_trans earlierOne (forest.within_parent oneBelow)
    have laterCommon := forest.within_trans laterOther (forest.within_parent otherBelow)
    have earlierParent := forest.within_trans earlierWithin (forest.within_parent firstBelow)
    by_cases equal : common = parent
    · subst equal
      rw [forest.eq_of_common_within oneBelow firstBelow earlierOne earlierWithin,
        forest.eq_of_common_within otherBelow secondBelow laterOther laterWithin]
      exact Nat.le_of_lt ordered
    · rcases forest.within_or_within earlierCommon earlierParent with within | within
      · -- The common parent lies below one branch, which would hold both states.
        obtain ⟨branch, branchBelow, commonWithin⟩ := forest.exists_branch within equal
        have firstBranch := forest.eq_of_common_within firstBelow branchBelow earlierWithin
          (forest.within_trans earlierCommon commonWithin)
        have secondBranch := forest.eq_of_common_within secondBelow branchBelow laterWithin
          (forest.within_trans laterCommon commonWithin)
        rw [firstBranch, secondBranch] at ordered
        exact absurd ordered (Nat.lt_irrefl _)
      · -- Both states lie below one child of the common parent.
        obtain ⟨branch, branchBelow, parentWithin⟩ :=
          forest.exists_branch within (Ne.symm equal)
        have laterParent :=
          forest.within_trans laterWithin (forest.within_parent secondBelow)
        have oneBranch := forest.eq_of_common_within oneBelow branchBelow earlierOne
          (forest.within_trans earlierParent parentWithin)
        have otherBranch := forest.eq_of_common_within otherBelow branchBelow laterOther
          (forest.within_trans laterParent parentWithin)
        exact Nat.le_of_eq (by rw [oneBranch, otherBranch])

/-- A state is left after everything strictly below it. -/
theorem leftBefore_of_within
    (forest : graph.IsForest)
    {earlier later : Nat}
    (within : graph.Within earlier later)
    (different : earlier ≠ later) :
    LeftBefore graph earlier later where
  not_within := fun backward => different (forest.within_antisymm within backward)
  region_le := by
    intro first second parent firstBelow secondBelow earlierWithin laterWithin
    have same := forest.eq_of_common_within firstBelow secondBelow earlierWithin
      (forest.within_trans within laterWithin)
    exact Nat.le_of_eq (by rw [same])

namespace Plan

/-! ## The bound of the descent does not matter -/

theorem exitsWithin_succ (bound state : Nat) :
    exitsWithin graph configuration (bound + 1) state =
      (graph.regionsOf state).flatMap
        (fun region =>
          match configuration.activeIn? region with
          | none => []
          | some child => exitsWithin graph configuration bound child) ++
        [state] := rfl

/-- A descent that may reach the bottom does not change with a larger bound. -/
theorem exitsWithin_succ_eq
    (forest : graph.IsForest)
    {bound state : Nat}
    (enough : graph.size < bound + (graph.chain state).length) :
    exitsWithin graph configuration (bound + 1) state =
      exitsWithin graph configuration bound state := by
  induction bound generalizing state with
  | zero =>
      have bounded : (graph.chain state).length ≤ graph.size :=
        Graph.length_chainWithin_le graph graph.size state
      omega
  | succ bound inductionHypothesis =>
      rw [exitsWithin_succ, exitsWithin_succ bound]
      congr 1
      refine List.flatMap_congr fun region member => ?_
      cases found : configuration.activeIn? region with
      | none => rfl
      | some child =>
          obtain ⟨index, place⟩ := List.mem_iff_getElem?.mp member
          have listed : child ∈ region.children := List.mem_of_find?_eq_some found
          have below := ((forest.mem_children_iff place).mp listed).1
          have length := forest.length_chain_of_parent below
          exact inductionHypothesis (by omega)

/-- What is left with a state: what is left in each of its regions, and the state. -/
theorem exitsBelow_eq
    (forest : graph.IsForest)
    (configuration : Configuration)
    (state : Nat) :
    exitsBelow graph configuration state =
      (List.range (graph.regionsOf state).length).flatMap
        (exitsIn graph configuration state) ++ [state] := by
  obtain ⟨bound, size_eq⟩ := Nat.exists_eq_succ_of_ne_zero (Nat.ne_of_gt forest.nonempty)
  let visit (region : Option Region) : List Nat :=
    match region.bind configuration.activeIn? with
    | none => []
    | some child => exitsBelow graph configuration child
  have byPlaces : exitsIn graph configuration state =
      fun index => visit (graph.regionsOf state)[index]? := rfl
  rw [byPlaces, flatMap_range_getElem?, exitsBelow, size_eq, exitsWithin_succ]
  congr 1
  refine List.flatMap_congr fun region member => ?_
  simp only [visit, Option.bind_some]
  cases found : configuration.activeIn? region with
  | none => rfl
  | some child =>
      obtain ⟨index, place⟩ := List.mem_iff_getElem?.mp member
      have listed : child ∈ region.children := List.mem_of_find?_eq_some found
      have below := ((forest.mem_children_iff place).mp listed).1
      have length := forest.length_chain_of_parent below
      have positive := List.length_pos_of_mem (forest.within_refl state)
      simp only [exitsBelow, size_eq]
      exact (exitsWithin_succ_eq forest (by omega)).symm

/-! ## Which states are left -/

/-- In a region with an active child, what is left is what is left below that child. -/
theorem mem_exitsIn_iff_exists
    (forest : graph.IsForest)
    (consistent : configuration.IsConsistent graph)
    {parent index state : Nat} :
    state ∈ exitsIn graph configuration parent index ↔
      ∃ child, graph.parentOf child = some parent ∧ graph.regionOf child = index ∧
        configuration.isActive child = true ∧
          state ∈ exitsBelow graph configuration child := by
  unfold exitsIn
  constructor
  · intro member
    split at member
    · contradiction
    · rename_i child found
      obtain ⟨region, place, found⟩ := Option.bind_eq_some_iff.mp found
      obtain ⟨listed, active⟩ :=
        (consistent.activeIn?_eq_some_iff (List.mem_of_getElem? place)).mp found
      obtain ⟨below, inRegion⟩ := (forest.mem_children_iff place).mp listed
      exact ⟨child, below, inRegion, active, member⟩
  · rintro ⟨child, below, rfl, active, member⟩
    obtain ⟨region, place, listed⟩ := forest.exists_region below
    have found : configuration.activeIn? region = some child :=
      (consistent.activeIn?_eq_some_iff (List.mem_of_getElem? place)).mpr ⟨listed, active⟩
    simpa only [place, Option.bind_some, found] using member

/-- With an active state exactly the active states within it are left. -/
theorem mem_exitsBelow_iff
    (forest : graph.IsForest)
    (consistent : configuration.IsConsistent graph)
    {state left : Nat}
    (active : configuration.isActive state = true) :
    left ∈ exitsBelow graph configuration state ↔
      configuration.isActive left = true ∧ graph.Within left state := by
  induction state using forest.inductionFromBelow with
  | step state inductionHypothesis =>
      rw [exitsBelow_eq forest, List.mem_append, List.mem_flatMap, List.mem_singleton]
      constructor
      · rintro (⟨index, _, member⟩ | rfl)
        · obtain ⟨child, below, _, childActive, member⟩ :=
            (mem_exitsIn_iff_exists forest consistent).mp member
          obtain ⟨leftActive, within⟩ :=
            (inductionHypothesis child below childActive).mp member
          exact ⟨leftActive, forest.within_trans within (forest.within_parent below)⟩
        · exact ⟨active, forest.within_refl left⟩
      · rintro ⟨leftActive, within⟩
        by_cases equal : left = state
        · exact .inr equal
        · left
          obtain ⟨child, below, childWithin⟩ := forest.exists_branch within equal
          have childActive := consistent.active_of_within forest leftActive childWithin
          refine ⟨graph.regionOf child, List.mem_range.mpr (forest.regionOf_lt below), ?_⟩
          exact (mem_exitsIn_iff_exists forest consistent).mpr
            ⟨child, below, rfl, childActive,
              (inductionHypothesis child below childActive).mpr ⟨leftActive, childWithin⟩⟩

/-- In a region exactly the active states within its children are left. -/
theorem mem_exitsIn_iff
    (forest : graph.IsForest)
    (consistent : configuration.IsConsistent graph)
    {parent index left : Nat} :
    left ∈ exitsIn graph configuration parent index ↔
      configuration.isActive left = true ∧
        ∃ child, graph.parentOf child = some parent ∧ graph.regionOf child = index ∧
          graph.Within left child := by
  rw [mem_exitsIn_iff_exists forest consistent]
  constructor
  · rintro ⟨child, below, inRegion, active, member⟩
    obtain ⟨leftActive, within⟩ := (mem_exitsBelow_iff forest consistent active).mp member
    exact ⟨leftActive, child, below, inRegion, within⟩
  · rintro ⟨leftActive, child, below, inRegion, within⟩
    have active := consistent.active_of_within forest leftActive within
    exact ⟨child, below, inRegion, active,
      (mem_exitsBelow_iff forest consistent active).mpr ⟨leftActive, within⟩⟩

/-! ## In which order they are left -/

/-- What is left in several regions is in order if what is left below each child is. -/
theorem pairwise_exitsIn
    (forest : graph.IsForest)
    (consistent : configuration.IsConsistent graph)
    {parent : Nat}
    {indices : List Nat}
    (sorted : indices.Pairwise (· < ·))
    (below_ordered : ∀ child, graph.parentOf child = some parent →
      configuration.isActive child = true →
        (exitsBelow graph configuration child).Pairwise (LeftBefore graph)) :
    (indices.flatMap (exitsIn graph configuration parent)).Pairwise (LeftBefore graph) := by
  rw [List.pairwise_flatMap]
  constructor
  · intro index _
    unfold exitsIn
    split
    · exact List.Pairwise.nil
    · rename_i child found
      obtain ⟨region, place, found⟩ := Option.bind_eq_some_iff.mp found
      obtain ⟨listed, active⟩ :=
        (consistent.activeIn?_eq_some_iff (List.mem_of_getElem? place)).mp found
      exact below_ordered child ((forest.mem_children_iff place).mp listed).1 active
  · refine sorted.imp ?_
    intro first second ordered earlier earlierMember later laterMember
    obtain ⟨_, one, oneBelow, rfl, earlierWithin⟩ :=
      (mem_exitsIn_iff forest consistent).mp earlierMember
    obtain ⟨_, other, otherBelow, rfl, laterWithin⟩ :=
      (mem_exitsIn_iff forest consistent).mp laterMember
    exact leftBefore_of_branches forest oneBelow otherBelow ordered earlierWithin laterWithin

/-- With an active state everything is left in order. -/
theorem pairwise_exitsBelow
    (forest : graph.IsForest)
    (consistent : configuration.IsConsistent graph)
    {state : Nat}
    (active : configuration.isActive state = true) :
    (exitsBelow graph configuration state).Pairwise (LeftBefore graph) := by
  induction state using forest.inductionFromBelow with
  | step state inductionHypothesis =>
      rw [exitsBelow_eq forest, List.pairwise_append]
      refine ⟨?_, List.pairwise_singleton _ _, ?_⟩
      · exact pairwise_exitsIn forest consistent List.pairwise_lt_range inductionHypothesis
      · intro earlier member later isState
        obtain ⟨index, _, member⟩ := List.mem_flatMap.mp member
        obtain ⟨_, child, below, _, within⟩ := (mem_exitsIn_iff forest consistent).mp member
        rw [List.mem_singleton.mp isState]
        refine leftBefore_of_within forest
          (forest.within_trans within (forest.within_parent below)) ?_
        rintro rfl
        exact forest.not_within_child below within

end Plan
end Statechart
