import Statechart.Graph.Query
import Statechart.Proofs.Graph.Numbering
import Statechart.Proofs.Plan.Lifecycle

/-!
# Default leaves

A state is by default below when it is active and its regions are filled with initial
children, all the way down. Its active leaves are then the default leaves of the graph,
which are found by another descent. This is what every root is like after the start, and
the target of an external transition after its plan has been carried out.
-/

namespace Statechart

/-- If one member of a list alone contributes, it contributes everything. -/
theorem flatMap_eq_of_unique
    {α β : Type}
    {list : List α}
    {member : α}
    {visit : α → List β}
    (distinct : list.Nodup)
    (listed : member ∈ list)
    (elsewhere : ∀ other ∈ list, other ≠ member → visit other = []) :
    list.flatMap visit = visit member := by
  obtain ⟨front, back, rfl⟩ := List.append_of_mem listed
  obtain ⟨_, backDistinct, apart⟩ := List.nodup_append.mp distinct
  have front_nil : front.flatMap visit = [] :=
    List.flatMap_eq_nil_iff.mpr fun other early => elsewhere other
      (List.mem_append_left _ early) (apart other early member List.mem_cons_self)
  have back_nil : back.flatMap visit = [] :=
    List.flatMap_eq_nil_iff.mpr fun other late => elsewhere other
      (List.mem_append_right _ (List.mem_cons_of_mem _ late))
      (ne_of_mem_of_not_mem late (List.nodup_cons.mp backDistinct).1)
  rw [List.flatMap_append, List.flatMap_cons, front_nil, back_nil, List.nil_append,
    List.append_nil]

variable {κ : Type} {graph : Graph κ} {configuration : Configuration}

namespace Graph.IsForest

variable (forest : graph.IsForest)

include forest

/-- The initial child of a region is initial. -/
theorem isInitial_initial
    {parent index : Nat}
    {region : Region}
    (place : (graph.regionsOf parent)[index]? = some region) :
    graph.IsInitial region.initial := by
  intro other otherBelow
  obtain ⟨below, inRegion⟩ := forest.initial_below place
  rw [below] at otherBelow
  cases otherBelow
  rw [inRegion, place, Option.map_some]

/-- In the depth-first order the states within a state are those of its subtree. -/
theorem filter_preorder_within
    {state : Nat}
    (inside : state < graph.size) :
    graph.preorder.filter (graph.isWithin · state) = graph.subtree state := by
  obtain ⟨before, after, split, _⟩ := forest.exists_preorder_eq inside
  have distinct := forest.nodup_preorder
  rw [split] at distinct
  obtain ⟨earlyDistinct, _, afterApart⟩ := List.nodup_append.mp distinct
  have beforeApart := (List.nodup_append.mp earlyDistinct).2.2
  have within_iff (other : Nat) :
      graph.isWithin other state = true ↔ other ∈ graph.subtree state := by
    rw [isWithin_iff, forest.mem_subtree_iff]
  have before_nil : before.filter (graph.isWithin · state) = [] :=
    List.filter_eq_nil_iff.mpr fun other early within =>
      beforeApart other early other ((within_iff other).mp within) rfl
  have after_nil : after.filter (graph.isWithin · state) = [] :=
    List.filter_eq_nil_iff.mpr fun other late within =>
      afterApart other (List.mem_append_right _ ((within_iff other).mp within)) other late rfl
  have all : (graph.subtree state).filter (graph.isWithin · state) = graph.subtree state :=
    List.filter_eq_self.mpr fun other => (within_iff other).mpr
  rw [split, List.filter_append, List.filter_append, before_nil, after_nil, all,
    List.nil_append, List.append_nil]

/-- The depth-first order is that of the depth-first numbers. -/
theorem pairwise_orderOf_preorder :
    graph.preorder.Pairwise fun first second => graph.orderOf first < graph.orderOf second := by
  rw [List.pairwise_iff_getElem]
  intro first second firstInside secondInside earlier
  rw [orderOf, orderOf, forest.nodup_preorder.idxOf_getElem,
    forest.nodup_preorder.idxOf_getElem]
  exact earlier

end Graph.IsForest

namespace Configuration

open Statechart.Graph

/-! ## Leaves within a state -/

/-- The leaves are the active states without active children, sorted by their depth-first
numbers. -/
theorem leaves_eq_mergeSort (forest : graph.IsForest) (configuration : Configuration) :
    configuration.leaves graph =
      ((List.range graph.size).filter (configuration.isLeaf graph)).mergeSort
        fun first second => graph.orderOf first ≤ graph.orderOf second := by
  let unsorted := (List.range graph.size).filter (configuration.isLeaf graph)
  have same : (configuration.leaves graph).Perm unsorted := by
    refine (List.perm_ext_iff_of_nodup (nodup_leaves forest configuration)
      (List.nodup_range.filter _)).mpr fun state => ?_
    rw [leaves, List.mem_filter, List.mem_filter, forest.mem_preorder_iff, List.mem_range]
  have sorted : (configuration.leaves graph).Pairwise fun first second =>
      graph.orderOf first ≤ graph.orderOf second :=
    (forest.pairwise_orderOf_preorder.filter _).imp Nat.le_of_lt
  have mergeSorted : (unsorted.mergeSort fun first second =>
      graph.orderOf first ≤ graph.orderOf second).Pairwise fun first second =>
        graph.orderOf first ≤ graph.orderOf second := by
    refine (List.pairwise_mergeSort ?_ ?_ unsorted).imp of_decide_eq_true
    · exact fun _ _ _ => by simpa using Nat.le_trans
    · exact fun _ _ => by simpa using Nat.le_total _ _
  refine List.Perm.eq_of_pairwise ?_ sorted mergeSorted
    (same.trans (List.mergeSort_perm _ _).symm)
  intro first second firstListed secondListed forward backward
  have inside {state : Nat} (listed : state ∈ unsorted) : state < graph.size :=
    List.mem_range.mp (List.mem_filter.mp listed).1
  exact forest.bijOn_orderOf.injOn (inside (same.subset firstListed))
    (inside ((List.mergeSort_perm _ _).subset secondListed)) (Nat.le_antisymm forward backward)

/-- The leaves within a state are those of its subtree. -/
theorem filter_leaves_within
    (forest : graph.IsForest)
    (configuration : Configuration)
    {state : Nat}
    (inside : state < graph.size) :
    (configuration.leaves graph).filter (graph.isWithin · state) =
      (graph.subtree state).filter (configuration.isLeaf graph) := by
  rw [leaves, List.filter_comm, forest.filter_preorder_within inside]

/-- Below an inactive state there is no leaf. -/
theorem IsConsistent.filter_subtree_of_inactive
    (consistent : configuration.IsConsistent graph)
    (forest : graph.IsForest)
    {state : Nat}
    (inactive : configuration.isActive state = false) :
    (graph.subtree state).filter (configuration.isLeaf graph) = [] := by
  rw [List.filter_eq_nil_iff]
  intro leaf listed isLeaf
  have active := ((isLeaf_iff forest).mp isLeaf).1
  have above := consistent.active_of_within forest active (forest.mem_subtree_iff.mp listed)
  rw [inactive] at above
  contradiction

/-! ## States that are by default below -/

/-- A state is active, and in the regions below it exactly the initial children are. -/
structure IsDefaultBelow
    (graph : Graph κ)
    (configuration : Configuration)
    (state : Nat) : Prop where
  /-- The state is active. -/
  active : configuration.isActive state = true
  /-- Of the children of an active state the initial ones are active. -/
  child_iff {parent child : Nat} :
    graph.Within parent state → configuration.isActive parent = true →
      graph.parentOf child = some parent →
        (configuration.isActive child = true ↔ graph.IsInitial child)

namespace IsDefaultBelow

variable
  {state : Nat}
  (isDefault : configuration.IsDefaultBelow graph state)
  (forest : graph.IsForest)

include isDefault forest

/-- The initial children of a state are as the state is. -/
theorem of_initial
    {child : Nat}
    (below : graph.parentOf child = some state)
    (isInitial : graph.IsInitial child) :
    configuration.IsDefaultBelow graph child where
  active :=
    (isDefault.child_iff (forest.within_refl state) isDefault.active below).mpr isInitial
  child_iff within :=
    isDefault.child_iff (forest.within_trans within (forest.within_parent below))

variable (consistent : configuration.IsConsistent graph)

include consistent

/-- The leaves below the state are its default leaves. -/
theorem filter_subtree_eq :
    (graph.subtree state).filter (configuration.isLeaf graph) = graph.initialLeaves state := by
  induction state using forest.inductionFromBelow with
  | step state inductionHypothesis =>
      have active_iff {child : Nat} (below : graph.parentOf child = some state) :=
        isDefault.child_iff (forest.within_refl state) isDefault.active below
      -- In a region only the initial child contributes, since the others are inactive.
      have inRegion {region : Region} (member : region ∈ graph.regionsOf state) :
          (region.children.flatMap graph.subtree).filter (configuration.isLeaf graph) =
            graph.initialLeaves region.initial := by
        obtain ⟨index, place⟩ := List.mem_iff_getElem?.mp member
        have isInitial := forest.isInitial_initial place
        obtain ⟨initialBelow, initialRegion⟩ := forest.initial_below place
        rw [List.filter_flatMap, flatMap_eq_of_unique (forest.children_nodup member)
          (forest.initial_mem member)]
        · exact inductionHypothesis region.initial initialBelow
            (isDefault.of_initial forest initialBelow isInitial)
        · intro other listed different
          obtain ⟨below, sameRegion⟩ := (forest.mem_children_iff place).mp listed
          refine consistent.filter_subtree_of_inactive forest ?_
          rw [Bool.eq_false_iff, ne_eq, active_iff below]
          exact fun otherInitial => different (otherInitial.eq_of_sameRegion isInitial below
            initialBelow (sameRegion.trans initialRegion.symm))
      rw [forest.subtree_eq, forest.initialLeaves_eq, childrenOf, List.flatMap_assoc]
      cases regions : graph.regionsOf state with
      | nil =>
          have isLeaf : configuration.isLeaf graph state = true := by
            simp [Configuration.isLeaf, isDefault.active, childrenOf, regions]
          simp [isLeaf]
      | cons first others =>
          have firstListed : first ∈ graph.regionsOf state := by simp [regions]
          obtain ⟨index, place⟩ := List.mem_iff_getElem?.mp firstListed
          have notLeaf : ¬ configuration.isLeaf graph state = true := fun isLeaf => by
            have below := (forest.initial_below place).1
            have vacant := ((isLeaf_iff forest).mp isLeaf).2 first.initial below
            rw [(active_iff below).mpr (forest.isInitial_initial place)] at vacant
            contradiction
          rw [List.filter_cons_of_neg notLeaf, List.filter_flatMap]
          exact List.flatMap_congr fun region listed => inRegion (regions ▸ listed)

/-- The active leaves within the state are its default leaves, in the same order. -/
theorem filter_leaves_eq :
    (configuration.leaves graph).filter (graph.isWithin · state) =
      graph.initialLeaves state := by
  rw [filter_leaves_within forest configuration (consistent.lt_size isDefault.active),
    isDefault.filter_subtree_eq forest consistent]

/-- Within the state those states are active that are reached through initial children. -/
theorem isActive_iff
    {other : Nat}
    (within : graph.Within other state) :
    configuration.isActive other = true ↔
      ∀ above, graph.Within other above → graph.Within above state → above ≠ state →
        graph.IsInitial above := by
  induction other using forest.inductionFromAbove with
  | root other isRoot =>
      have same := forest.eq_of_within_root isRoot within
      subst same
      refine ⟨fun _ above upper _ different => ?_, fun _ => isDefault.active⟩
      exact absurd (forest.eq_of_within_root isRoot upper) different
  | child other parent below inductionHypothesis =>
      by_cases equal : other = state
      · subst equal
        refine ⟨fun _ above upper lower different => ?_, fun _ => isDefault.active⟩
        exact absurd (forest.within_antisymm lower upper) different
      · have parentWithin := forest.parent_within_of_ne within equal below
        constructor
        · intro active above upper lower different
          have parentActive := consistent.parent_active active below
          rcases forest.within_iff.mp upper with rfl | ⟨next, nextBelow, nextWithin⟩
          · exact (isDefault.child_iff parentWithin parentActive below).mp active
          · rw [below] at nextBelow
            cases nextBelow
            exact (inductionHypothesis parentWithin).mp parentActive above nextWithin lower
              different
        · intro reached
          have parentActive := (inductionHypothesis parentWithin).mpr fun above upper =>
            reached above (forest.within_of_parent below upper)
          exact (isDefault.child_iff parentWithin parentActive below).mpr
            (reached other (forest.within_refl other) within equal)

/-- There is one way for a state to be by default below. -/
theorem isActive_eq
    {other : Configuration}
    (otherConsistent : other.IsConsistent graph)
    (otherDefault : other.IsDefaultBelow graph state)
    {lower : Nat}
    (within : graph.Within lower state) :
    configuration.isActive lower = other.isActive lower := by
  rw [Bool.eq_iff_iff, isDefault.isActive_iff forest consistent within,
    otherDefault.isActive_iff forest otherConsistent within]

end IsDefaultBelow

/-- If all roots are by default below, the active leaves are the default leaves of all
roots. -/
theorem leaves_eq_of_isDefaultBelow
    (forest : graph.IsForest)
    (consistent : configuration.IsConsistent graph)
    (isDefault : ∀ root ∈ graph.roots, configuration.IsDefaultBelow graph root) :
    configuration.leaves graph = graph.roots.flatMap graph.initialLeaves := by
  have preorder_eq : graph.preorder = graph.roots.flatMap graph.subtree := rfl
  rw [leaves, preorder_eq, List.filter_flatMap]
  exact List.flatMap_congr fun root listed =>
    (isDefault root listed).filter_subtree_eq forest consistent

end Configuration

/-! ## What plans lead to -/

namespace Plan

open Statechart.Graph

/-- The configuration after a start in which everything is entered. -/
def started (graph : Graph κ) : Configuration :=
  (Configuration.empty graph.size).after ((initial graph).map .enter)

section Started

variable (forest : graph.IsForest)

include forest

theorem isConsistent_started : (started graph).IsConsistent graph :=
  (soundSteps_initial forest).isConsistent forest (Configuration.isConsistent_empty graph)
    List.prefix_rfl

/-- After the start every root is by default below. -/
theorem isDefaultBelow_started
    {root : Nat}
    (listed : root ∈ graph.roots) :
    (started graph).IsDefaultBelow graph root where
  active := (isComplete_after_initial forest).root_active listed
  child_iff := by
    intro parent child _ parentActive below
    rw [started, isActive_after_initial_iff forest, mem_initial_iff forest] at parentActive
    rw [started, isActive_after_initial_iff forest, mem_initial_iff forest]
    constructor
    · rintro ⟨_, reached⟩
      exact reached child (forest.within_refl child)
    · intro isInitial
      refine ⟨lt_size_of_parentOf below, fun above upper => ?_⟩
      rcases forest.within_iff.mp upper with rfl | ⟨next, nextBelow, nextWithin⟩
      · exact isInitial
      · rw [below] at nextBelow
        cases nextBelow
        exact parentActive.2 above nextWithin

/-- After the start the active leaves are the default leaves of all roots. -/
theorem leaves_started :
    (started graph).leaves graph = graph.roots.flatMap graph.initialLeaves :=
  Configuration.leaves_eq_of_isDefaultBelow forest (isConsistent_started forest)
    fun _ => isDefaultBelow_started forest

end Started

section External

variable
  {source target : Nat}
  (forest : graph.IsForest)
  (consistent : configuration.IsConsistent graph)
  (active : configuration.isActive source = true)
  (sameTree : graph.rootOf source = graph.rootOf target)

include forest

/-- A target is affected by its transition. -/
theorem isAffected_target (sameTree : graph.rootOf source = graph.rootOf target) :
    IsAffected graph source target target := by
  rcases domain?_cases forest sameTree with
    ⟨noDomain, _, _⟩ | ⟨domain, branch, hasDomain, below, within, _⟩
  · exact (isAffected_of_domain_none noDomain).mpr rfl
  · exact (isAffected_of_domain_some hasDomain).mpr
      ⟨branch, below, ⟨branch, below, rfl, .inr within⟩, within⟩

include consistent active sameTree

theorem isConsistent_outcome :
    ((external graph configuration source target).outcome configuration).IsConsistent graph :=
  (soundSteps_external forest consistent active sameTree []).isConsistent forest consistent
    List.prefix_rfl

/-- Whatever was active before, in the end the target is by default below. -/
theorem isDefaultBelow_outcome :
    ((external graph configuration source target).outcome configuration).IsDefaultBelow graph
      target where
  active :=
    (isActive_outcome_of_isAffected forest consistent active sameTree
      (isAffected_target forest sameTree)).mpr
        (mem_entries_of_target_within forest sameTree (forest.within_refl target)
          (isAffected_target forest sameTree))
  child_iff := by
    intro parent child within parentActive below
    have affected := (isAffected_target forest sameTree).of_within forest within
    have entered := (isActive_outcome_of_isAffected forest consistent active sameTree
      affected).mp parentActive
    rw [isActive_outcome_child_iff forest consistent active sameTree below (.inl entered),
      chosenIn?_of_not_within forest]
    · constructor
      · intro isInitial other otherBelow
        rw [below] at otherBelow
        cases otherBelow
        exact isInitial
      · exact fun isInitial => isInitial parent below
    · intro other otherBelow _ targetWithin
      exact forest.not_within_child otherBelow (forest.within_trans within targetWithin)

/-- In the end the active leaves within the target are its default leaves, in the same
order. -/
theorem filter_leaves_outcome :
    (((external graph configuration source target).outcome configuration).leaves
        graph).filter (graph.isWithin · target) = graph.initialLeaves target :=
  (isDefaultBelow_outcome forest consistent active sameTree).filter_leaves_eq forest
    (isConsistent_outcome forest consistent active sameTree)

/-- A transition to a root brings its whole tree back to where it was after the start. -/
theorem isActive_outcome_of_root
    (isRoot : graph.parentOf target = none)
    {state : Nat}
    (inTree : graph.rootOf state = target) :
    ((external graph configuration source target).outcome configuration).isActive state =
      (started graph).isActive state := by
  have listed : target ∈ graph.roots :=
    forest.mem_roots_iff.mpr ⟨target_lt_size forest consistent active sameTree, isRoot⟩
  exact (isDefaultBelow_outcome forest consistent active sameTree).isActive_eq forest
    (isConsistent_outcome forest consistent active sameTree) (isConsistent_started forest)
    (isDefaultBelow_started forest listed) (inTree ▸ forest.within_rootOf state)

end External

end Plan

/-! ## Default leaves by key -/

namespace Graph

variable [DecidableEq κ]

/-- Whether a state is another one or lies below it, by key. -/
def liesWithin (graph : Graph κ) (lower upper : κ) : Bool :=
  lower == upper || graph.isDescendant lower upper

variable (forest : graph.IsForest)

include forest

namespace IsForest

theorem liesWithin_eq
    {lower upper : Nat}
    {lowerKey upperKey : κ}
    (lowerHas : graph.key? lower = some lowerKey)
    (upperHas : graph.key? upper = some upperKey) :
    graph.liesWithin lowerKey upperKey = graph.isWithin lower upper := by
  rw [liesWithin, isDescendant, forest.indexOf?_eq_some_iff.mpr lowerHas,
    forest.indexOf?_eq_some_iff.mpr upperHas, Bool.eq_iff_iff]
  by_cases same : lower = upper
  · subst same
    rw [lowerHas] at upperHas
    cases upperHas
    simp [isWithin_iff.mpr (forest.within_refl lower)]
  · have different : lowerKey ≠ upperKey := by
      rintro rfl
      exact same (forest.key_injective lowerHas upperHas)
    simp [same, different]

/-- The keys that lie within a state are those of the states within it. -/
theorem filter_keys_within
    {upper : Nat}
    {upperKey : κ}
    (upperHas : graph.key? upper = some upperKey)
    (states : List Nat) :
    (graph.keys states).filter (graph.liesWithin · upperKey) =
      graph.keys (states.filter (graph.isWithin · upper)) := by
  induction states with
  | nil => rfl
  | cons state states inductionHypothesis =>
      unfold keys at inductionHypothesis ⊢
      cases has : graph.key? state with
      | none =>
          rw [List.filterMap_cons_none has, inductionHypothesis, List.filter_cons]
          split
          · rw [List.filterMap_cons_none has]
          · rfl
      | some key =>
          rw [List.filterMap_cons_some has, List.filter_cons, List.filter_cons,
            inductionHypothesis, forest.liesWithin_eq has upperHas]
          split
          · rw [List.filterMap_cons_some has]
          · rfl

theorem defaultLeaves_eq
    {state : Nat}
    {key : κ}
    (has : graph.key? state = some key) :
    graph.defaultLeaves key = graph.keys (graph.initialLeaves state) := by
  rw [defaultLeaves, forest.indexOf?_eq_some_iff.mpr has]

/-- The default leaves of all roots are the keys of what the roots lead to by default. -/
theorem flatMap_defaultLeaves_rootKeys :
    graph.rootKeys.flatMap graph.defaultLeaves =
      graph.keys (graph.roots.flatMap graph.initialLeaves) := by
  have inside : ∀ root ∈ graph.roots, root < graph.size := fun root listed =>
    (forest.mem_roots_iff.mp listed).1
  unfold rootKeys
  generalize graph.roots = roots at inside
  induction roots with
  | nil => rfl
  | cons root roots inductionHypothesis =>
      obtain ⟨key, has⟩ := exists_key (inside root List.mem_cons_self)
      have rest := inductionHypothesis fun other listed =>
        inside other (List.mem_cons_of_mem _ listed)
      unfold keys at rest ⊢
      rw [List.filterMap_cons_some has, List.flatMap_cons, List.flatMap_cons,
        List.filterMap_append, rest, forest.defaultLeaves_eq has, keys]

end IsForest
end Graph
end Statechart
