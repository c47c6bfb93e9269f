import Statechart.Proofs.Plan.Outcome

/-!
# The first and the last plan

At the start every root is entered with its initial children, which makes the
configuration complete. At the end everything that is active is left. The steps of both
plans are sound.
-/

namespace Statechart

variable {κ : Type} {graph : Graph κ} {configuration : Configuration}

namespace Graph

/-- A state that has a parent is the initial child of its region. -/
def IsInitial (graph : Graph κ) (child : Nat) : Prop :=
  ∀ parent, graph.parentOf child = some parent →
    (graph.regionsOf parent)[graph.regionOf child]?.map Region.initial = some child

theorem isInitial_of_root
    {root : Nat}
    (isRoot : graph.parentOf root = none) :
    graph.IsInitial root := by
  intro parent below
  rw [isRoot] at below
  contradiction

/-- On the way to a root, which lies below nothing, initial children are chosen. -/
theorem isChosen_root_iff
    (forest : graph.IsForest)
    {root child : Nat}
    (isRoot : graph.parentOf root = none) :
    graph.IsChosen root child ↔ graph.IsInitial child := by
  refine forall₂_congr fun parent _ => ?_
  rw [chosenIn?_of_not_within forest]
  intro other below _ within
  rw [← forest.eq_of_within_root isRoot within, below] at isRoot
  contradiction

/-- Two initial children of one region are the same. -/
theorem IsInitial.eq_of_sameRegion
    {first second parent : Nat}
    (firstInitial : graph.IsInitial first)
    (secondInitial : graph.IsInitial second)
    (firstBelow : graph.parentOf first = some parent)
    (secondBelow : graph.parentOf second = some parent)
    (sameRegion : graph.regionOf first = graph.regionOf second) :
    first = second := by
  have found := firstInitial parent firstBelow
  rw [sameRegion, secondInitial parent secondBelow] at found
  exact (Option.some.inj found).symm

end Graph

namespace Plan

open Statechart.Graph

/-! ## The states that are entered at the start -/

/-- What is entered with a root by default. -/
theorem entriesAlong_root_eq
    (forest : graph.IsForest)
    (root : Nat) :
    entriesAlong graph root [] = entered graph root root := by
  rw [entered, routeTo_of_within (forest.within_refl root), pathBelow_self forest]

/-- With a root the states within it are entered that are reached through initial
children. -/
theorem mem_entriesAlong_root_iff
    (forest : graph.IsForest)
    {root state : Nat}
    (isRoot : graph.parentOf root = none) :
    state ∈ entriesAlong graph root [] ↔
      graph.Within state root ∧ ∀ above, graph.Within state above → graph.IsInitial above := by
  rw [entriesAlong_root_eq forest, mem_entered_iff forest, ReachedFrom]
  refine and_congr_right fun within => ?_
  constructor
  · intro chosen above upper
    by_cases equal : above = root
    · rw [equal]
      exact isInitial_of_root isRoot
    · refine (isChosen_root_iff forest isRoot).mp (chosen above upper ?_ equal)
      rcases forest.within_or_within upper within with lower | lower
      · exact lower
      · exact absurd (forest.eq_of_within_root isRoot lower) equal
  · exact fun initial above upper _ _ =>
      (isChosen_root_iff forest isRoot).mpr (initial above upper)

/-- At the start exactly the states are entered that are reached through initial
children. -/
theorem mem_initial_iff
    (forest : graph.IsForest)
    {state : Nat} :
    state ∈ initial graph ↔
      state < graph.size ∧ ∀ above, graph.Within state above → graph.IsInitial above := by
  rw [initial, List.mem_flatMap]
  constructor
  · rintro ⟨root, listed, member⟩
    obtain ⟨inside, isRoot⟩ := forest.mem_roots_iff.mp listed
    obtain ⟨within, reached⟩ := (mem_entriesAlong_root_iff forest isRoot).mp member
    exact ⟨forest.lt_size_of_within within inside, reached⟩
  · rintro ⟨inside, reached⟩
    exact ⟨graph.rootOf state, forest.rootOf_mem_roots inside,
      (mem_entriesAlong_root_iff forest (forest.parentOf_rootOf state)).mpr
        ⟨forest.within_rootOf state, reached⟩⟩

/-- What is entered or left within different roots has nothing in common. -/
theorem pairwise_flatMap_roots
    (forest : graph.IsForest)
    {roots : List Nat}
    (listed : roots.Sublist graph.roots)
    {visit : Nat → List Nat}
    {precedes : Nat → Nat → Prop}
    (visit_within : ∀ root ∈ roots, ∀ state ∈ visit root, graph.Within state root)
    (visit_ordered : ∀ root ∈ roots, (visit root).Pairwise precedes)
    (precedes_of_apart : ∀ first second,
      graph.rootOf first ≠ graph.rootOf second → precedes first second) :
    (roots.flatMap visit).Pairwise precedes := by
  rw [List.pairwise_flatMap]
  refine ⟨visit_ordered, ?_⟩
  refine List.Pairwise.imp_of_mem ?_ (forest.roots_nodup.sublist listed)
  intro first second firstMember secondMember different earlier earlierMember later laterMember
  have rootOf_eq {root state : Nat} (member : root ∈ roots) (visited : state ∈ visit root) :
      graph.rootOf state = root :=
    forest.rootOf_eq_iff.mpr ⟨visit_within root member state visited,
      (forest.mem_roots_iff.mp (listed.subset member)).2⟩
  refine precedes_of_apart earlier later ?_
  rw [rootOf_eq firstMember earlierMember, rootOf_eq secondMember laterMember]
  exact different

/-- At the start everything is entered from above to below. -/
theorem pairwise_initial (forest : graph.IsForest) :
    (initial graph).Pairwise fun earlier later => ¬ graph.Within earlier later := by
  refine pairwise_flatMap_roots forest (List.Sublist.refl _) ?_ ?_ ?_
  · intro root listed state member
    exact ((mem_entriesAlong_root_iff forest
      (forest.mem_roots_iff.mp listed).2).mp member).1
  · intro root _
    rw [entriesAlong_root_eq forest]
    exact pairwise_entered forest root root
  · exact fun first second apart within => apart (forest.rootOf_eq_of_within within)

/-- Every step at the start is sound. -/
theorem soundSteps_initial (forest : graph.IsForest) :
    SoundSteps graph (Configuration.empty graph.size) ((initial graph).map .enter) := by
  have apart := pairwise_initial forest
  refine SoundSteps.enters ?_ ?_ ?_ ?_ ?_ ?_ ?_ forest
  · refine apart.imp fun notWithin equal => ?_
    subst equal
    exact notWithin (forest.within_refl _)
  · intro state member
    have inside := ((mem_initial_iff forest).mp member).1
    rw [(Configuration.isConsistent_empty graph).flags_size]
    exact ⟨inside, inside⟩
  · simp
  · intro state member parent below
    left
    exact (mem_initial_iff forest).mpr ⟨forest.parent_lt below, fun above upper =>
      ((mem_initial_iff forest).mp member).2 above (forest.within_of_parent below upper)⟩
  · exact apart.imp fun notWithin below => notWithin (forest.within_parent below)
  · simp
  · intro first firstMember second secondMember parent
    exact (((mem_initial_iff forest).mp firstMember).2 first
      (forest.within_refl first)).eq_of_sameRegion
        (((mem_initial_iff forest).mp secondMember).2 second (forest.within_refl second))

/-- After the start exactly the entered states are active. -/
theorem isActive_after_initial_iff
    (forest : graph.IsForest)
    {state : Nat} :
    ((Configuration.empty graph.size).after ((initial graph).map .enter)).isActive state =
        true ↔ state ∈ initial graph := by
  rw [Configuration.isActive_after_enters]
  · simp
  · intro state member
    rw [(Configuration.isConsistent_empty graph).flags_size]
    exact ((mem_initial_iff forest).mp member).1

/-- After the start the configuration is complete. -/
theorem isComplete_after_initial (forest : graph.IsForest) :
    ((Configuration.empty graph.size).after ((initial graph).map .enter)).IsComplete graph
    where
  root_active := by
    intro root listed
    obtain ⟨inside, isRoot⟩ := forest.mem_roots_iff.mp listed
    rw [isActive_after_initial_iff forest, mem_initial_iff forest]
    refine ⟨inside, fun above upper => ?_⟩
    rw [forest.eq_of_within_root isRoot upper]
    exact isInitial_of_root isRoot
  region_filled := by
    intro state region active member
    rw [isActive_after_initial_iff forest, mem_initial_iff forest] at active
    obtain ⟨index, place⟩ := List.mem_iff_getElem?.mp member
    obtain ⟨below, inRegion⟩ := forest.initial_below place
    simp only [isActive_after_initial_iff forest, mem_initial_iff forest]
    have isInitial : graph.IsInitial region.initial := by
      intro parent otherBelow
      rw [below] at otherBelow
      cases otherBelow
      rw [inRegion, place, Option.map_some]
    refine ⟨region.initial, ⟨forest.initial_mem member, Graph.lt_size_of_parentOf below, ?_⟩,
      ?_⟩
    · intro above upper
      by_cases equal : region.initial = above
      · rw [← equal]
        exact isInitial
      · exact active.2 above (forest.parent_within_of_ne upper equal below)
    · rintro other ⟨listed, _, reached⟩
      obtain ⟨otherBelow, otherRegion⟩ := (forest.mem_children_iff place).mp listed
      exact (reached other (forest.within_refl other)).eq_of_sameRegion isInitial otherBelow
        below (otherRegion.trans inRegion.symm)

/-! ## The states that are left at the end -/

section Shutdown

variable (forest : graph.IsForest) (consistent : configuration.IsConsistent graph)

include forest consistent

/-- At the end exactly the active states are left. -/
theorem mem_shutdown_iff
    {state : Nat} :
    state ∈ shutdown graph configuration ↔ configuration.isActive state = true := by
  rw [shutdown, List.mem_flatMap]
  constructor
  · rintro ⟨root, listed, member⟩
    have rootActive := (List.mem_filter.mp listed).2
    exact ((mem_exitsBelow_iff forest consistent rootActive).mp member).1
  · intro active
    have within := forest.within_rootOf state
    have rootActive := consistent.active_of_within forest active within
    exact ⟨graph.rootOf state,
      List.mem_filter.mpr ⟨forest.rootOf_mem_roots (consistent.lt_size active), rootActive⟩,
      (mem_exitsBelow_iff forest consistent rootActive).mpr ⟨active, within⟩⟩

/-- At the end everything is left from below to above. -/
theorem pairwise_shutdown :
    (shutdown graph configuration).Pairwise fun earlier later =>
      ¬ graph.Within later earlier := by
  refine pairwise_flatMap_roots forest List.filter_sublist ?_ ?_ ?_
  · intro root listed state member
    have rootActive := (List.mem_filter.mp listed).2
    exact ((mem_exitsBelow_iff forest consistent rootActive).mp member).2
  · intro root listed
    have rootActive := (List.mem_filter.mp listed).2
    exact (pairwise_exitsBelow forest consistent rootActive).imp LeftBefore.not_within
  · exact fun first second apart within => apart (forest.rootOf_eq_of_within within).symm

/-- At the end trees are left in the order of their roots. -/
theorem pairwise_rootOf_shutdown
    (sorted : graph.roots.Pairwise (· < ·)) :
    (shutdown graph configuration).Pairwise fun earlier later =>
      graph.rootOf earlier ≤ graph.rootOf later := by
  have rootOf_eq {root state : Nat}
      (listed : root ∈ graph.roots.filter configuration.isActive)
      (member : state ∈ exitsBelow graph configuration root) :
      graph.rootOf state = root := by
    obtain ⟨isRoot, rootActive⟩ := List.mem_filter.mp listed
    exact forest.rootOf_eq_iff.mpr
      ⟨((mem_exitsBelow_iff forest consistent rootActive).mp member).2,
        (forest.mem_roots_iff.mp isRoot).2⟩
  rw [shutdown, List.pairwise_flatMap]
  constructor
  · intro root listed
    refine List.pairwise_of_forall_mem_list fun first firstMember second secondMember => ?_
    exact Nat.le_of_eq
      ((rootOf_eq listed firstMember).trans (rootOf_eq listed secondMember).symm)
  · refine List.Pairwise.imp_of_mem ?_ (sorted.sublist List.filter_sublist)
    intro first second firstListed secondListed before earlier earlierMember later laterMember
    rw [rootOf_eq firstListed earlierMember, rootOf_eq secondListed laterMember]
    exact Nat.le_of_lt before

/-- Every step at the end is sound. -/
theorem soundSteps_shutdown :
    SoundSteps graph configuration ((shutdown graph configuration).map .exit) := by
  have apart := pairwise_shutdown forest consistent
  refine SoundSteps.exits forest ?_ ?_ ?_ ?_
  · refine apart.imp fun notWithin equal => ?_
    subst equal
    exact notWithin (forest.within_refl _)
  · exact fun state member => (mem_shutdown_iff forest consistent).mp member
  · exact fun state _ child _ childActive =>
      (mem_shutdown_iff forest consistent).mpr childActive
  · exact apart.imp fun notWithin below => notWithin (forest.within_parent below)

end Shutdown

end Plan
end Statechart
