import Statechart.Graph.Walk
import Mathlib.Data.List.Nodup
import Mathlib.Tactic.Common

/-!
# Forests

A graph that has passed all checks is a forest: every way up ends at a root, and the
regions of a state hold exactly its children. In a forest the bounded walk up from a
state is the whole way to its root, so the bound may be forgotten. States are compared
by whether one lies on the way up from the other.
-/

namespace Statechart
namespace Graph

variable {κ : Type} {graph : Graph κ}

/-- The states of a graph form a forest whose regions agree with the parents. -/
structure IsForest (graph : Graph κ) : Prop where
  /-- There is at least one state. -/
  nonempty : 0 < graph.size
  /-- Only states are parents. -/
  parent_lt {state parent : Nat} :
    graph.parentOf state = some parent → parent < graph.size
  /-- The way up from a state ends at a root. -/
  grounded {state : Nat} :
    state < graph.size → ∃ root ∈ graph.chain state, graph.parentOf root = none
  /-- The roots are the states without a parent. -/
  mem_roots_iff {root : Nat} :
    root ∈ graph.roots ↔ root < graph.size ∧ graph.parentOf root = none
  /-- No root is listed twice. -/
  roots_nodup : graph.roots.Nodup
  /-- A region holds the children that refer to it. -/
  mem_children_iff {parent index child : Nat} {region : Region} :
    (graph.regionsOf parent)[index]? = some region →
      (child ∈ region.children ↔
        graph.parentOf child = some parent ∧ graph.regionOf child = index)
  /-- The region that a child refers to exists. -/
  regionOf_lt {parent child : Nat} :
    graph.parentOf child = some parent →
      graph.regionOf child < (graph.regionsOf parent).length
  /-- No child is listed twice. -/
  children_nodup {parent : Nat} {region : Region} :
    region ∈ graph.regionsOf parent → region.children.Nodup
  /-- The initial child of a region is one of its children. -/
  initial_mem {parent : Nat} {region : Region} :
    region ∈ graph.regionsOf parent → region.initial ∈ region.children
  /-- Different states have different keys. -/
  key_injective {first second : Nat} {key : κ} :
    graph.key? first = some key → graph.key? second = some key → first = second

/-- Only states have parents. -/
theorem lt_size_of_parentOf
    {state parent : Nat}
    (below : graph.parentOf state = some parent) :
    state < graph.size := by
  by_contra outside
  have absent : graph.nodes[state]? = none :=
    Array.getElem?_eq_none (Nat.le_of_not_lt outside)
  simp [parentOf, absent] at below

/-- Only states have regions. -/
theorem lt_size_of_mem_regionsOf
    {state : Nat}
    {region : Region}
    (member : region ∈ graph.regionsOf state) :
    state < graph.size := by
  by_contra outside
  have absent : graph.nodes[state]? = none :=
    Array.getElem?_eq_none (Nat.le_of_not_lt outside)
  simp [regionsOf, absent] at member

/-- The first state on the way up is the state itself. -/
theorem mem_chainWithin_self
    {bound : Nat}
    (positive : 0 < bound)
    (state : Nat) :
    state ∈ graph.chainWithin bound state := by
  obtain ⟨rest, rfl⟩ := Nat.exists_eq_succ_of_ne_zero (Nat.ne_of_gt positive)
  simp [chainWithin_succ]

/-- A walk takes at most as many steps as its bound allows. -/
theorem length_chainWithin_le (graph : Graph κ) (bound state : Nat) :
    (graph.chainWithin bound state).length ≤ bound := by
  induction bound generalizing state with
  | zero => simp
  | succ bound inductionHypothesis =>
      rw [chainWithin_succ]
      cases parentOf graph state with
      | none => simp
      | some parent => simpa using inductionHypothesis parent

/-- A walk that has met a root does not change with a larger bound. -/
theorem chainWithin_succ_eq_of_root
    {bound state root : Nat}
    (met : root ∈ graph.chainWithin bound state)
    (isRoot : graph.parentOf root = none) :
    graph.chainWithin (bound + 1) state = graph.chainWithin bound state := by
  induction bound generalizing state with
  | zero => simp at met
  | succ bound inductionHypothesis =>
      rw [chainWithin_succ, chainWithin_succ graph bound]
      cases below : graph.parentOf state with
      | none => rfl
      | some parent =>
          rw [chainWithin_succ, below] at met
          rcases List.mem_cons.mp met with equal | met
          · rw [equal, below] at isRoot
            contradiction
          · simp only [inductionHypothesis met]

namespace IsForest

/-- The way up from a root is the root alone. -/
theorem chain_of_root
    (forest : graph.IsForest)
    {state : Nat}
    (isRoot : graph.parentOf state = none) :
    graph.chain state = [state] := by
  obtain ⟨bound, size_eq⟩ := Nat.exists_eq_succ_of_ne_zero (Nat.ne_of_gt forest.nonempty)
  rw [chain, size_eq, chainWithin_succ, isRoot]

/-- The way up from a child continues with the way up from its parent. -/
theorem chain_of_parent
    (forest : graph.IsForest)
    {state parent : Nat}
    (below : graph.parentOf state = some parent) :
    graph.chain state = state :: graph.chain parent := by
  obtain ⟨root, met, isRoot⟩ := forest.grounded (lt_size_of_parentOf below)
  obtain ⟨bound, size_eq⟩ := Nat.exists_eq_succ_of_ne_zero (Nat.ne_of_gt forest.nonempty)
  rw [chain, size_eq, chainWithin_succ, below] at met
  rcases List.mem_cons.mp met with equal | met
  · rw [equal, below] at isRoot
    contradiction
  · rw [chain, chain, size_eq, chainWithin_succ, below,
      chainWithin_succ_eq_of_root met isRoot]

/-- A child is one step further from the root than its parent. -/
theorem length_chain_of_parent
    (forest : graph.IsForest)
    {state parent : Nat}
    (below : graph.parentOf state = some parent) :
    (graph.chain state).length = (graph.chain parent).length + 1 := by
  rw [forest.chain_of_parent below, List.length_cons]

/-- What holds of a state as soon as it holds of its parent holds of every state. -/
theorem inductionFromAbove
    (forest : graph.IsForest)
    {motive : Nat → Prop}
    (root : ∀ state, graph.parentOf state = none → motive state)
    (child : ∀ state parent, graph.parentOf state = some parent →
      motive parent → motive state)
    (state : Nat) : motive state := by
  induction length : (graph.chain state).length generalizing state with
  | zero =>
      cases below : graph.parentOf state with
      | none => exact root state below
      | some parent =>
          rw [forest.length_chain_of_parent below] at length
          contradiction
  | succ length inductionHypothesis =>
      cases below : graph.parentOf state with
      | none => exact root state below
      | some parent =>
          rw [forest.length_chain_of_parent below] at length
          exact child state parent below
            (inductionHypothesis parent (Nat.succ.inj length))

/-- What holds of a state as soon as it holds of all its children holds of every
state. -/
theorem inductionFromBelow
    (forest : graph.IsForest)
    {motive : Nat → Prop}
    (state : Nat)
    (step : ∀ state, (∀ child, graph.parentOf child = some state → motive child) →
      motive state) : motive state := by
  induction remaining : graph.size - (graph.chain state).length generalizing state with
  | zero =>
      refine step state fun child below => ?_
      have childLength := forest.length_chain_of_parent below
      have childBound := length_chainWithin_le graph graph.size child
      rw [chain] at childLength
      omega
  | succ remaining inductionHypothesis =>
      refine step state fun child below => inductionHypothesis child ?_
      have childLength := forest.length_chain_of_parent below
      omega

end IsForest

/-! ## The order of a forest -/

/-- A state equals another one or lies below it. -/
def Within (graph : Graph κ) (state above : Nat) : Prop :=
  above ∈ graph.chain state

instance (graph : Graph κ) (state above : Nat) : Decidable (graph.Within state above) :=
  inferInstanceAs (Decidable (above ∈ graph.chain state))

namespace IsForest

variable (forest : graph.IsForest)

include forest

/-- Every state lies within itself. -/
theorem within_refl (state : Nat) : graph.Within state state :=
  mem_chainWithin_self forest.nonempty state

/-- A state lies within a second one if it is the same or its parent does. -/
theorem within_iff
    {state above : Nat} :
    graph.Within state above ↔
      above = state ∨ ∃ parent, graph.parentOf state = some parent ∧
        graph.Within parent above := by
  unfold Within
  cases below : graph.parentOf state with
  | none => simp [forest.chain_of_root below]
  | some parent => simp [forest.chain_of_parent below]

/-- A root lies within nothing but itself. -/
theorem eq_of_within_root
    {state above : Nat}
    (isRoot : graph.parentOf state = none)
    (within : graph.Within state above) :
    above = state := by
  rcases forest.within_iff.mp within with equal | ⟨parent, below, _⟩
  · exact equal
  · rw [isRoot] at below
    contradiction

/-- A child lies within whatever its parent lies within. -/
theorem within_of_parent
    {state parent above : Nat}
    (below : graph.parentOf state = some parent)
    (within : graph.Within parent above) :
    graph.Within state above :=
  forest.within_iff.mpr (.inr ⟨parent, below, within⟩)

/-- A child lies within its parent. -/
theorem within_parent
    {state parent : Nat}
    (below : graph.parentOf state = some parent) :
    graph.Within state parent :=
  forest.within_of_parent below (forest.within_refl parent)

/-- What lies strictly below a state has a parent within that state. -/
theorem parent_within_of_ne
    {state parent above : Nat}
    (within : graph.Within state above)
    (different : state ≠ above)
    (below : graph.parentOf state = some parent) :
    graph.Within parent above := by
  rcases forest.within_iff.mp within with equal | ⟨other, otherBelow, within⟩
  · exact absurd equal.symm different
  · rw [below] at otherBelow
    cases otherBelow
    exact within

/-- A state strictly below another one has a parent. -/
theorem exists_parent_of_within
    {state above : Nat}
    (within : graph.Within state above)
    (different : state ≠ above) :
    ∃ parent, graph.parentOf state = some parent ∧ graph.Within parent above := by
  rcases forest.within_iff.mp within with equal | exists_parent
  · exact absurd equal.symm different
  · exact exists_parent

theorem within_trans
    {first second third : Nat}
    (lower : graph.Within first second)
    (upper : graph.Within second third) :
    graph.Within first third := by
  induction first using forest.inductionFromAbove with
  | root state isRoot =>
      rw [← forest.eq_of_within_root isRoot lower]
      exact upper
  | child state parent below inductionHypothesis =>
      rcases forest.within_iff.mp lower with rfl | ⟨other, otherBelow, within⟩
      · exact upper
      · rw [below] at otherBelow
        cases otherBelow
        exact forest.within_of_parent below (inductionHypothesis within)

/-- The way up from a state is at least as long as the way up from anything above it. -/
theorem length_chain_le_of_within
    {state above : Nat}
    (within : graph.Within state above) :
    (graph.chain above).length ≤ (graph.chain state).length := by
  induction state using forest.inductionFromAbove with
  | root state isRoot =>
      have same := forest.eq_of_within_root isRoot within
      exact Nat.le_of_eq (by rw [same])
  | child state parent below inductionHypothesis =>
      rcases forest.within_iff.mp within with rfl | ⟨other, otherBelow, within⟩
      · exact Nat.le_refl _
      · rw [below] at otherBelow
        cases otherBelow
        have shorter := inductionHypothesis within
        have length := forest.length_chain_of_parent below
        omega

/-- No state lies within its own child. -/
theorem not_within_child
    {state parent : Nat}
    (below : graph.parentOf state = some parent) :
    ¬ graph.Within parent state := by
  intro within
  have longer := forest.length_chain_le_of_within within
  have length := forest.length_chain_of_parent below
  omega

/-- No state is its own parent. -/
theorem ne_parent
    {state parent : Nat}
    (below : graph.parentOf state = some parent) :
    state ≠ parent := by
  intro equal
  subst equal
  exact forest.not_within_child below (forest.within_refl _)

theorem within_antisymm
    {first second : Nat}
    (forward : graph.Within first second)
    (backward : graph.Within second first) :
    first = second := by
  by_contra different
  obtain ⟨parent, below, within⟩ := forest.exists_parent_of_within forward different
  exact forest.not_within_child below (forest.within_trans within backward)

/-- Of two states above a third, one lies within the other. -/
theorem within_or_within
    {state first second : Nat}
    (withinFirst : graph.Within state first)
    (withinSecond : graph.Within state second) :
    graph.Within first second ∨ graph.Within second first := by
  induction state using forest.inductionFromAbove with
  | root state isRoot =>
      rw [forest.eq_of_within_root isRoot withinFirst]
      exact .inl withinSecond
  | child state parent below inductionHypothesis =>
      by_cases firstEqual : state = first
      · subst firstEqual
        exact .inl withinSecond
      · by_cases secondEqual : state = second
        · subst secondEqual
          exact .inr withinFirst
        · exact inductionHypothesis
            (forest.parent_within_of_ne withinFirst firstEqual below)
            (forest.parent_within_of_ne withinSecond secondEqual below)

/-- Two children of one state with a common state within them are the same. -/
theorem eq_of_common_within
    {state parent first second : Nat}
    (firstBelow : graph.parentOf first = some parent)
    (secondBelow : graph.parentOf second = some parent)
    (withinFirst : graph.Within state first)
    (withinSecond : graph.Within state second) :
    first = second := by
  by_contra different
  rcases forest.within_or_within withinFirst withinSecond with within | within
  · exact forest.not_within_child secondBelow
      (forest.parent_within_of_ne within different firstBelow)
  · exact forest.not_within_child firstBelow
      (forest.parent_within_of_ne within (Ne.symm different) secondBelow)

/-- Below a state leads a branch to everything strictly within it. -/
theorem exists_branch
    {state above : Nat}
    (within : graph.Within state above)
    (different : state ≠ above) :
    ∃ branch, graph.parentOf branch = some above ∧ graph.Within state branch := by
  induction state using forest.inductionFromAbove with
  | root state isRoot =>
      exact absurd (forest.eq_of_within_root isRoot within).symm different
  | child state parent below inductionHypothesis =>
      by_cases equal : parent = above
      · subst equal
        exact ⟨state, below, forest.within_refl state⟩
      · obtain ⟨branch, branchBelow, parentWithin⟩ := inductionHypothesis
          (forest.parent_within_of_ne within different below) equal
        exact ⟨branch, branchBelow, forest.within_of_parent below parentWithin⟩

/-- On the way up every state lies strictly below those that follow. -/
theorem pairwise_chain (state : Nat) :
    (graph.chain state).Pairwise fun lower upper => graph.Within lower upper ∧ lower ≠ upper := by
  induction state using forest.inductionFromAbove with
  | root state isRoot =>
      rw [forest.chain_of_root isRoot]
      exact List.pairwise_singleton _ _
  | child state parent below inductionHypothesis =>
      rw [forest.chain_of_parent below, List.pairwise_cons]
      refine ⟨fun upper within => ⟨forest.within_of_parent below within, ?_⟩,
        inductionHypothesis⟩
      rintro rfl
      exact forest.not_within_child below within

/-- On the way up no state is met twice. -/
theorem nodup_chain (state : Nat) : (graph.chain state).Nodup :=
  (forest.pairwise_chain state).imp And.right

/-- Only states lie within states. -/
theorem lt_size_of_within
    {state above : Nat}
    (within : graph.Within state above)
    (inside : above < graph.size) :
    state < graph.size := by
  by_cases equal : state = above
  · rw [equal]
    exact inside
  · obtain ⟨parent, below, _⟩ := forest.exists_parent_of_within within equal
    exact lt_size_of_parentOf below

/-- Only states are above states. -/
theorem above_lt_size
    {state above : Nat}
    (within : graph.Within state above)
    (inside : state < graph.size) :
    above < graph.size := by
  induction state using forest.inductionFromAbove with
  | root state isRoot =>
      rw [forest.eq_of_within_root isRoot within]
      exact inside
  | child state parent below inductionHypothesis =>
      rcases forest.within_iff.mp within with rfl | ⟨other, otherBelow, within⟩
      · exact inside
      · rw [below] at otherBelow
        cases otherBelow
        exact inductionHypothesis within (forest.parent_lt below)

end IsForest

/-! ## Regions -/

namespace IsForest

variable (forest : graph.IsForest)

include forest

/-- The region that holds a child. -/
theorem exists_region
    {child parent : Nat}
    (below : graph.parentOf child = some parent) :
    ∃ region, (graph.regionsOf parent)[graph.regionOf child]? = some region ∧
      child ∈ region.children := by
  have inRange := forest.regionOf_lt below
  refine ⟨(graph.regionsOf parent)[graph.regionOf child],
    List.getElem?_eq_getElem inRange, ?_⟩
  exact (forest.mem_children_iff (List.getElem?_eq_getElem inRange)).mpr ⟨below, rfl⟩

/-- The initial child of a region lies in that region. -/
theorem initial_below
    {parent index : Nat}
    {region : Region}
    (found : (graph.regionsOf parent)[index]? = some region) :
    graph.parentOf region.initial = some parent ∧ graph.regionOf region.initial = index :=
  (forest.mem_children_iff found).mp
    (forest.initial_mem (List.mem_of_getElem? found))

/-- The children of a state are those that name it as their parent. -/
theorem mem_childrenOf_iff
    {parent child : Nat} :
    child ∈ graph.childrenOf parent ↔ graph.parentOf child = some parent := by
  unfold childrenOf
  rw [List.mem_flatMap]
  constructor
  · rintro ⟨region, member, listed⟩
    obtain ⟨index, found⟩ := List.mem_iff_getElem?.mp member
    exact ((forest.mem_children_iff found).mp listed).1
  · intro below
    obtain ⟨region, found, listed⟩ := forest.exists_region below
    exact ⟨region, List.mem_of_getElem? found, listed⟩

end IsForest

/-! ## Keys -/

/-- Every state has a key. -/
theorem exists_key
    {state : Nat}
    (inside : state < graph.size) :
    ∃ key, graph.key? state = some key := by
  refine ⟨graph.nodes[state].id, ?_⟩
  rw [key?, Array.getElem?_eq_getElem inside, Option.map_some]

/-- A key leads back to its state. -/
theorem IsForest.indexOf?_eq_some_iff
    [DecidableEq κ]
    (forest : graph.IsForest)
    {state : Nat}
    {key : κ} :
    graph.indexOf? key = some state ↔ graph.key? state = some key := by
  have key_of_index {state : Nat} (found : graph.indexOf? key = some state) :
      graph.key? state = some key := by
    obtain ⟨inside, isKey, _⟩ := Array.findIdx?_eq_some_iff_getElem.mp found
    rw [key?, Array.getElem?_eq_getElem inside, Option.map_some, beq_iff_eq.mp isKey]
  constructor
  · exact key_of_index
  · intro hasKey
    cases found : graph.indexOf? key with
    | none =>
        rw [indexOf?, Array.findIdx?_eq_none_iff] at found
        obtain ⟨node, present, isKey⟩ := Option.map_eq_some_iff.mp hasKey
        have absent := found node (Array.mem_of_getElem? present)
        simp [isKey] at absent
    | some other => rw [forest.key_injective (key_of_index found) hasKey]

/-- Different states have different keys. -/
theorem IsForest.nodup_keys
    (forest : graph.IsForest)
    {states : List Nat}
    (distinct : states.Nodup) :
    (graph.keys states).Nodup := by
  refine distinct.filterMap fun first second key isFirst isSecond => ?_
  exact forest.key_injective isFirst isSecond

end Graph
end Statechart
