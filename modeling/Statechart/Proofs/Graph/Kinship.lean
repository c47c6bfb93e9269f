import Mathlib.Order.Defs.Unbundled
import Statechart.Graph.Query
import Statechart.Proofs.Graph.Ancestry
import Statechart.Proofs.Graph.Numbering
import Statechart.Proofs.Graph.Validated

/-!
# States above and below each other

The list of the ancestors of a state, the comparison of two states, the deepest state above
two others and the child on the way down are four walks of their own. Asked by key, all of
them answer from the one order of the forest.
-/

namespace Statechart
namespace Graph

variable {κ : Type} [DecidableEq κ]

/-! ## States by key -/

/-- One root is above both states. -/
def InOneTree (graph : Graph κ) (first second : κ) : Prop :=
  ∃ root ∈ graph.rootKeys, root ∈ graph.ancestors first ∧ root ∈ graph.ancestors second

instance (graph : Graph κ) (first second : κ) : Decidable (graph.InOneTree first second) :=
  inferInstanceAs (Decidable (∃ root ∈ graph.rootKeys,
    root ∈ graph.ancestors first ∧ root ∈ graph.ancestors second))

/-- The relations between the states of a graph are those of one forest. -/
structure HasTreeOrder (graph : Graph κ) : Prop where
  /-- The ancestors of a state are the state itself and the ancestors of its parent. -/
  ancestors_eq {key : κ} :
    graph.contains key = true →
      graph.ancestors key = key :: ((graph.parent? key).map graph.ancestors).getD []
  /-- A state lies below another one exactly if the other one is among its ancestors. -/
  isDescendant_iff {below above : κ} :
    graph.isDescendant below above = true ↔ below ≠ above ∧ above ∈ graph.ancestors below
  /-- Lying below is a strict order. -/
  strict : IsStrictOrder κ fun below above => graph.isDescendant below above = true
  /-- Only states of different trees have no state in common. -/
  lca?_eq_none_iff {first second : κ} :
    graph.contains first = true → graph.contains second = true →
      (graph.lca? first second = none ↔ ¬ graph.InOneTree first second)
  /-- The state that two states have in common is the deepest of their common ancestors. -/
  lca?_eq_some_iff {first second common : κ} :
    graph.lca? first second = some common ↔
      common ∈ graph.ancestors first ∧ common ∈ graph.ancestors second ∧
        ∀ other ∈ graph.ancestors first, other ∈ graph.ancestors second →
          other ∈ graph.ancestors common
  /-- What two states have in common does not depend on their order. -/
  lca?_comm (first second : κ) : graph.lca? first second = graph.lca? second first
  /-- A state has a second one in common with it if it is that state or lies below it. -/
  lca?_eq_right_iff {first second : κ} :
    graph.contains second = true →
      (graph.lca? first second = some second ↔
        first = second ∨ graph.isDescendant first second = true)
  /-- On the way down to a state lies the only child whose subtree holds the state. -/
  exists_childToward? {below above : Nat} {lower upper : κ} :
    graph.indexOf? lower = some below → graph.indexOf? upper = some above →
      graph.isDescendant lower upper = true →
        ∃ child, graph.childToward? above below = some child ∧
          child ∈ graph.childrenOf above ∧ below ∈ graph.subtree child ∧
          ∀ other ∈ graph.childrenOf above, below ∈ graph.subtree other → other = child
  /-- There is no way down to a state from any state but its proper ancestors. -/
  childToward?_eq_none {below above : Nat} {lower upper : κ} :
    graph.indexOf? lower = some below → graph.indexOf? upper = some above →
      graph.isDescendant lower upper = false → graph.childToward? above below = none

variable {graph : Graph κ}

theorem contains_eq_true_iff {key : κ} :
    graph.contains key = true ↔ ∃ state, graph.indexOf? key = some state :=
  Option.isSome_iff_exists

theorem contains_eq_false_iff {key : κ} :
    graph.contains key = false ↔ graph.indexOf? key = none :=
  Option.isSome_eq_false_iff.trans Option.isNone_iff_eq_none

/-- Keys lead to states. -/
theorem lt_size_of_indexOf?
    {key : κ}
    {state : Nat}
    (found : graph.indexOf? key = some state) :
    state < graph.size :=
  (Array.findIdx?_eq_some_iff_getElem.mp found).1

/-- Whether a state lies below another one is read off their positions. -/
theorem isDescendant_iff_within
    {lower upper : κ}
    {below above : Nat}
    (belowFound : graph.indexOf? lower = some below)
    (aboveFound : graph.indexOf? upper = some above) :
    graph.isDescendant lower upper = true ↔ below ≠ above ∧ graph.Within below above := by
  simp [isDescendant, belowFound, aboveFound, isWithin_iff]

/-- Only states have ancestors. -/
theorem exists_indexOf?_of_mem_ancestors
    {key other : κ}
    (listed : other ∈ graph.ancestors key) :
    ∃ state, graph.indexOf? key = some state := by
  cases found : graph.indexOf? key with
  | none => simp [ancestors, found] at listed
  | some state => exact ⟨state, rfl⟩

namespace IsForest

variable (forest : graph.IsForest)

include forest

/-- The root of its tree is the only one above a state. -/
theorem root_above_iff
    {state : Nat}
    {key root : κ}
    (found : graph.indexOf? key = some state) :
    (root ∈ graph.rootKeys ∧ root ∈ graph.ancestors key) ↔
      graph.key? (graph.rootOf state) = some root := by
  have inside := lt_size_of_indexOf? found
  simp only [ancestors, found, rootKeys, keys, List.mem_filterMap]
  constructor
  · rintro ⟨⟨top, listed, isTop⟩, above, within, isAbove⟩
    obtain rfl := forest.key_injective isTop isAbove
    rwa [forest.rootOf_eq_iff.mpr ⟨within, (forest.mem_roots_iff.mp listed).2⟩]
  · intro isRoot
    exact ⟨⟨_, forest.rootOf_mem_roots inside, isRoot⟩, _, forest.within_rootOf state, isRoot⟩

/-- Different keys lead to different states. -/
theorem eq_of_indexOf?
    {state : Nat}
    {first second : κ}
    (firstFound : graph.indexOf? first = some state)
    (secondFound : graph.indexOf? second = some state) :
    first = second := by
  have has := forest.indexOf?_eq_some_iff.mp firstFound
  rw [forest.indexOf?_eq_some_iff.mp secondFound] at has
  exact (Option.some.inj has).symm

/-- States lie in one tree exactly if they have the same root. -/
theorem inOneTree_iff
    {first second : Nat}
    {firstKey secondKey : κ}
    (firstFound : graph.indexOf? firstKey = some first)
    (secondFound : graph.indexOf? secondKey = some second) :
    graph.InOneTree firstKey secondKey ↔ graph.rootOf first = graph.rootOf second := by
  constructor
  · rintro ⟨root, listed, aboveFirst, aboveSecond⟩
    exact forest.key_injective ((forest.root_above_iff firstFound).mp ⟨listed, aboveFirst⟩)
      ((forest.root_above_iff secondFound).mp ⟨listed, aboveSecond⟩)
  · intro sameRoot
    have inside := lt_size_of_indexOf? firstFound
    obtain ⟨root, isRoot⟩ :=
      exists_key (forest.above_lt_size (forest.within_rootOf first) inside)
    obtain ⟨listed, aboveFirst⟩ := (forest.root_above_iff firstFound).mpr isRoot
    rw [sameRoot] at isRoot
    exact ⟨root, listed, aboveFirst, ((forest.root_above_iff secondFound).mpr isRoot).2⟩

/-! ## Ancestors by key -/

/-- The ancestors of a state are the states that it lies within. -/
theorem mem_ancestors_iff
    {key other : κ}
    {state : Nat}
    (found : graph.indexOf? key = some state) :
    other ∈ graph.ancestors key ↔
      ∃ above, graph.indexOf? other = some above ∧ graph.Within state above := by
  simp only [ancestors, found, keys, List.mem_filterMap, forest.indexOf?_eq_some_iff]
  exact ⟨fun ⟨above, within, isKey⟩ => ⟨above, isKey, within⟩,
    fun ⟨above, isKey, within⟩ => ⟨above, within, isKey⟩⟩

/-- A state is among the ancestors of another one if the other one lies within it. -/
theorem mem_ancestors_iff_within
    {lower upper : κ}
    {below above : Nat}
    (belowFound : graph.indexOf? lower = some below)
    (aboveFound : graph.indexOf? upper = some above) :
    upper ∈ graph.ancestors lower ↔ graph.Within below above := by
  rw [forest.mem_ancestors_iff belowFound]
  constructor
  · rintro ⟨other, otherFound, within⟩
    rw [aboveFound] at otherFound
    cases otherFound
    exact within
  · exact fun within => ⟨above, aboveFound, within⟩

/-- Ancestors of ancestors are ancestors. -/
theorem mem_ancestors_trans
    {first second third : κ}
    (lower : second ∈ graph.ancestors first)
    (upper : third ∈ graph.ancestors second) :
    third ∈ graph.ancestors first := by
  obtain ⟨state, found⟩ := exists_indexOf?_of_mem_ancestors lower
  obtain ⟨middle, middleFound, withinMiddle⟩ := (forest.mem_ancestors_iff found).mp lower
  obtain ⟨top, topFound, within⟩ := (forest.mem_ancestors_iff middleFound).mp upper
  exact (forest.mem_ancestors_iff found).mpr
    ⟨top, topFound, forest.within_trans withinMiddle within⟩

/-- States that are ancestors of each other are the same. -/
theorem mem_ancestors_antisymm
    {first second : κ}
    (forward : second ∈ graph.ancestors first)
    (backward : first ∈ graph.ancestors second) :
    first = second := by
  obtain ⟨state, found⟩ := exists_indexOf?_of_mem_ancestors forward
  obtain ⟨other, otherFound, within⟩ := (forest.mem_ancestors_iff found).mp forward
  have equal := forest.within_antisymm within
    ((forest.mem_ancestors_iff_within otherFound found).mp backward)
  subst equal
  exact forest.eq_of_indexOf? found otherFound

/-- Every state is among its own ancestors. -/
theorem mem_ancestors_self
    {key : κ}
    (known : graph.contains key = true) :
    key ∈ graph.ancestors key := by
  obtain ⟨state, found⟩ := contains_eq_true_iff.mp known
  exact (forest.mem_ancestors_iff_within found found).mpr (forest.within_refl state)

/-- The ancestors of a state are the state itself and the ancestors of its parent. -/
theorem ancestors_eq
    {key : κ}
    (known : graph.contains key = true) :
    graph.ancestors key = key :: ((graph.parent? key).map graph.ancestors).getD [] := by
  obtain ⟨state, found⟩ := contains_eq_true_iff.mp known
  have isKey := forest.indexOf?_eq_some_iff.mp found
  simp only [ancestors, parent?, found, Option.bind_some]
  cases below : graph.parentOf state with
  | none => simp [forest.chain_of_root below, keys, isKey]
  | some parent =>
      obtain ⟨parentKey, hasKey⟩ := exists_key (forest.parent_lt below)
      simp [forest.chain_of_parent below, keys, isKey, hasKey, ancestors,
        forest.indexOf?_eq_some_iff.mpr hasKey]

/-- A state lies below another one exactly if the other one is among its ancestors. -/
theorem isDescendant_iff
    {below above : κ} :
    graph.isDescendant below above = true ↔
      below ≠ above ∧ above ∈ graph.ancestors below := by
  unfold isDescendant
  cases belowFound : graph.indexOf? below with
  | none => simp [ancestors, belowFound]
  | some lower =>
      rw [forest.mem_ancestors_iff belowFound]
      cases aboveFound : graph.indexOf? above with
      | none => simp
      | some upper =>
          have sameIff : lower = upper ↔ below = above := by
            constructor
            · rintro rfl
              exact forest.eq_of_indexOf? belowFound aboveFound
            · rintro rfl
              exact Option.some.inj (belowFound.symm.trans aboveFound)
          simp [isWithin_iff, sameIff]

/-- Lying below is a strict order. -/
theorem isStrictOrder_isDescendant :
    IsStrictOrder κ fun below above => graph.isDescendant below above = true where
  irrefl key below := (forest.isDescendant_iff.mp below).1 rfl
  trans first second third := by
    intro lower upper
    obtain ⟨different, secondAbove⟩ := forest.isDescendant_iff.mp lower
    obtain ⟨_, thirdAbove⟩ := forest.isDescendant_iff.mp upper
    refine forest.isDescendant_iff.mpr
      ⟨?_, forest.mem_ancestors_trans secondAbove thirdAbove⟩
    rintro rfl
    exact different (forest.mem_ancestors_antisymm secondAbove thirdAbove)

/-- The roots are the states without a parent. -/
theorem mem_rootKeys_iff
    {key : κ} :
    key ∈ graph.rootKeys ↔ graph.contains key = true ∧ graph.parent? key = none := by
  simp only [rootKeys, keys, List.mem_filterMap, forest.mem_roots_iff, contains_eq_true_iff,
    ← forest.indexOf?_eq_some_iff]
  constructor
  · rintro ⟨root, ⟨_, isRoot⟩, found⟩
    exact ⟨⟨root, found⟩, by simp [parent?, found, isRoot]⟩
  · rintro ⟨⟨state, found⟩, rootless⟩
    refine ⟨state, ⟨lt_size_of_indexOf? found, ?_⟩, found⟩
    by_contra above
    obtain ⟨parent, below⟩ := Option.ne_none_iff_exists'.mp above
    obtain ⟨parentKey, isKey⟩ := exists_key (forest.parent_lt below)
    simp [parent?, found, below, isKey] at rootless

/-! ## What states have in common -/

/-- The state that two states have in common is the deepest of their common ancestors. -/
theorem lca?_eq_some_iff
    {first second common : κ} :
    graph.lca? first second = some common ↔
      common ∈ graph.ancestors first ∧ common ∈ graph.ancestors second ∧
        ∀ other ∈ graph.ancestors first, other ∈ graph.ancestors second →
          other ∈ graph.ancestors common := by
  unfold lca?
  cases firstFound : graph.indexOf? first with
  | none => simp [ancestors, firstFound]
  | some left =>
      cases secondFound : graph.indexOf? second with
      | none => simp [ancestors, secondFound]
      | some right =>
          simp only [Option.bind_eq_some_iff, forest.meet?_eq_some_iff,
            forest.mem_ancestors_iff firstFound, forest.mem_ancestors_iff secondFound,
            ← forest.indexOf?_eq_some_iff]
          constructor
          · rintro ⟨middle, ⟨leftWithin, rightWithin, deepest⟩, found⟩
            refine ⟨⟨middle, found, leftWithin⟩, ⟨middle, found, rightWithin⟩, ?_⟩
            rintro other ⟨above, aboveFound, leftAbove⟩ ⟨again, againFound, rightAbove⟩
            rw [aboveFound] at againFound
            cases againFound
            exact (forest.mem_ancestors_iff_within found aboveFound).mpr
              (deepest above leftAbove rightAbove)
          · rintro ⟨⟨middle, found, leftWithin⟩, ⟨again, againFound, rightWithin⟩, deepest⟩
            rw [found] at againFound
            cases againFound
            refine ⟨middle, ⟨leftWithin, rightWithin, ?_⟩, found⟩
            intro above leftAbove rightAbove
            obtain ⟨other, isKey⟩ :=
              exists_key (forest.above_lt_size leftAbove (lt_size_of_indexOf? firstFound))
            have aboveFound := forest.indexOf?_eq_some_iff.mpr isKey
            exact (forest.mem_ancestors_iff_within found aboveFound).mp
              (deepest other ⟨above, aboveFound, leftAbove⟩ ⟨above, aboveFound, rightAbove⟩)

/-- What two states have in common does not depend on their order. -/
theorem lca?_comm (first second : κ) :
    graph.lca? first second = graph.lca? second first := by
  refine Option.ext fun common => ?_
  rw [forest.lca?_eq_some_iff, forest.lca?_eq_some_iff, and_left_comm]
  exact and_congr_right fun _ => and_congr_right fun _ =>
    forall_congr' fun _ => forall_comm

/-- Only states of different trees have no state in common. -/
theorem lca?_eq_none_iff
    {first second : κ}
    (firstKnown : graph.contains first = true)
    (secondKnown : graph.contains second = true) :
    graph.lca? first second = none ↔ ¬ graph.InOneTree first second := by
  obtain ⟨left, firstFound⟩ := contains_eq_true_iff.mp firstKnown
  obtain ⟨right, secondFound⟩ := contains_eq_true_iff.mp secondKnown
  rw [← not_iff_not, not_not, ← ne_eq, Option.ne_none_iff_exists']
  constructor
  · rintro ⟨common, found⟩
    obtain ⟨firstAbove, secondAbove, _⟩ := forest.lca?_eq_some_iff.mp found
    obtain ⟨middle, middleFound, leftWithin⟩ :=
      (forest.mem_ancestors_iff firstFound).mp firstAbove
    have rightWithin := (forest.mem_ancestors_iff_within secondFound middleFound).mp secondAbove
    rw [forest.inOneTree_iff firstFound secondFound, forest.rootOf_eq_of_within leftWithin,
      forest.rootOf_eq_of_within rightWithin]
  · intro together
    have sameRoot := (forest.inOneTree_iff firstFound secondFound).mp together
    obtain ⟨common, met⟩ :=
      Option.isSome_iff_exists.mp (forest.meet?_isSome_of_sameTree sameRoot)
    have within := (forest.meet?_eq_some_iff.mp met).1
    obtain ⟨key, isKey⟩ :=
      exists_key (forest.above_lt_size within (lt_size_of_indexOf? firstFound))
    exact ⟨key, by simp [lca?, firstFound, secondFound, met, isKey]⟩

/-- A state has a second one in common with it if it is that state or lies below it. -/
theorem lca?_eq_right_iff
    {first second : κ}
    (known : graph.contains second = true) :
    graph.lca? first second = some second ↔
      first = second ∨ graph.isDescendant first second = true := by
  have own := forest.mem_ancestors_self known
  have above_iff : second ∈ graph.ancestors first ↔
      first = second ∨ graph.isDescendant first second = true := by
    rw [forest.isDescendant_iff]
    by_cases same : first = second
    · simp [same, own]
    · simp [same]
  rw [← above_iff, forest.lca?_eq_some_iff]
  exact ⟨And.left, fun above => ⟨above, own, fun _ _ shared => shared⟩⟩

/-! ## The way down -/

omit [DecidableEq κ] in
/-- On the way down to a state lies the only child whose subtree holds the state. -/
theorem exists_childToward?
    {below above : Nat}
    (within : graph.Within below above)
    (different : below ≠ above) :
    ∃ child, graph.childToward? above below = some child ∧
      child ∈ graph.childrenOf above ∧ below ∈ graph.subtree child ∧
      ∀ other ∈ graph.childrenOf above, below ∈ graph.subtree other → other = child := by
  simp only [forest.mem_childrenOf_iff, forest.mem_subtree_iff]
  obtain ⟨child, isChild, withinChild⟩ := forest.exists_branch within different
  refine ⟨child, forest.childToward?_eq_some_iff.mpr ⟨isChild, withinChild⟩,
    isChild, withinChild, ?_⟩
  intro other otherChild withinOther
  exact forest.eq_of_common_within otherChild isChild withinOther withinChild

/-- In a forest all walks describe the one order. -/
theorem hasTreeOrder : graph.HasTreeOrder where
  ancestors_eq := forest.ancestors_eq
  isDescendant_iff := forest.isDescendant_iff
  strict := forest.isStrictOrder_isDescendant
  lca?_eq_none_iff := forest.lca?_eq_none_iff
  lca?_eq_some_iff := forest.lca?_eq_some_iff
  lca?_comm := forest.lca?_comm
  lca?_eq_right_iff := forest.lca?_eq_right_iff
  exists_childToward? := by
    intro below above lower upper belowFound aboveFound lies
    obtain ⟨different, within⟩ := (isDescendant_iff_within belowFound aboveFound).mp lies
    exact forest.exists_childToward? within different
  childToward?_eq_none := by
    intro below above lower upper belowFound aboveFound apart
    rw [forest.childToward?_eq_none_iff]
    by_contra strictly
    obtain ⟨different, within⟩ := not_or.mp strictly
    have lies := (isDescendant_iff_within belowFound aboveFound).mpr
      ⟨different, not_not.mp within⟩
    rw [apart] at lies
    contradiction

end IsForest
end Graph

namespace Blueprint

variable {κ η : Type} [DecidableEq κ] [StateKey κ]

/-- The states of a graph that passed the check of a blueprint are ordered as a forest. -/
theorem hasTreeOrder_of_validate
    {blueprint : Blueprint κ η}
    {graph : Graph κ}
    (validated : blueprint.validate = .ok graph) :
    graph.HasTreeOrder :=
  (blueprint.isForest_of_validate validated).hasTreeOrder

/-- In the chart of two regions the children of both regions have the composite state in
common. -/
theorem hasTreeOrder_of_validate_twoRegions :
    (twoRegions Unit).graph.HasTreeOrder ∧
      (twoRegions Unit).graph.lca? "green" "loud" = some "on" :=
  ⟨hasTreeOrder_of_validate (validate_twoRegions Unit), by cbv⟩

end Blueprint
end Statechart
