import Statechart.Proofs.Graph.Forest

/-!
# Upward walks in a forest

In a forest the walks that look for a state above another one, for the deepest state
above two others, for the root of a tree and for the child on the way down all describe
the one order of the forest.
-/

namespace Statechart
namespace Graph

variable {κ : Type} {graph : Graph κ}

/-- The search for a state on the way up finds what the way up holds. -/
theorem reachesWithin_iff
    {above bound state : Nat} :
    graph.reachesWithin above bound state = true ↔
      above ∈ graph.chainWithin bound state := by
  induction bound generalizing state with
  | zero => simp [reachesWithin]
  | succ bound inductionHypothesis =>
      rw [reachesWithin, chainWithin_succ, Bool.or_eq_true, beq_iff_eq, List.mem_cons,
        eq_comm]
      cases graph.parentOf state with
      | none => simp
      | some parent => simp [inductionHypothesis]

/-- Being within a state is decided by the search on the way up. -/
theorem isWithin_iff
    {state above : Nat} :
    graph.isWithin state above = true ↔ graph.Within state above :=
  reachesWithin_iff

/-- A walk to the top ends at the root that it meets. -/
theorem topWithin_eq_of_root
    {bound state root : Nat}
    (met : root ∈ graph.chainWithin bound state)
    (isRoot : graph.parentOf root = none) :
    graph.topWithin bound state = root := by
  induction bound generalizing state with
  | zero => simp at met
  | succ bound inductionHypothesis =>
      rw [chainWithin_succ] at met
      rw [topWithin]
      cases below : graph.parentOf state with
      | none =>
          rw [below] at met
          have equal : root = state := by simpa using met
          exact equal.symm
      | some parent =>
          rw [below] at met
          rcases List.mem_cons.mp met with equal | met
          · rw [equal, below] at isRoot
            contradiction
          · exact inductionHypothesis met

/-- The step below a state that a walk finds is a child of that state on the way up. -/
theorem stepBelowWithin_eq_some
    {above bound state child : Nat}
    (found : graph.stepBelowWithin above bound state = some child) :
    graph.parentOf child = some above ∧ child ∈ graph.chainWithin bound state := by
  induction bound generalizing state with
  | zero => simp [stepBelowWithin] at found
  | succ bound inductionHypothesis =>
      rw [stepBelowWithin] at found
      rw [chainWithin_succ]
      cases below : graph.parentOf state with
      | none => simp [below] at found
      | some parent =>
          rw [below] at found
          by_cases equal : parent = above
          · simp only [if_pos equal, Option.some.injEq] at found
            subst found
            rw [below, equal]
            exact ⟨rfl, List.mem_cons_self⟩
          · simp only [if_neg equal] at found
            obtain ⟨isChild, met⟩ := inductionHypothesis found
            exact ⟨isChild, List.mem_cons_of_mem _ met⟩

/-- A walk that passes a child of a state finds a step below that state. -/
theorem stepBelowWithin_isSome
    {above bound state child : Nat}
    (isChild : graph.parentOf child = some above)
    (met : child ∈ graph.chainWithin bound state) :
    (graph.stepBelowWithin above bound state).isSome := by
  induction bound generalizing state with
  | zero => simp at met
  | succ bound inductionHypothesis =>
      rw [chainWithin_succ] at met
      rw [stepBelowWithin]
      cases below : graph.parentOf state with
      | none =>
          rw [below] at met
          have equal : child = state := by simpa using met
          rw [equal, below] at isChild
          contradiction
      | some parent =>
          by_cases equal : parent = above
          · simp [equal]
          · simp only [if_neg equal]
            rw [below] at met
            rcases List.mem_cons.mp met with same | met
            · rw [same, below] at isChild
              exact absurd (Option.some.inj isChild) equal
            · exact inductionHypothesis met

namespace IsForest

variable (forest : graph.IsForest)

include forest

/-! ## The child on the way down -/

/-- The child toward a state is the child that the state lies within. -/
theorem childToward?_eq_some_iff
    {above below child : Nat} :
    graph.childToward? above below = some child ↔
      graph.parentOf child = some above ∧ graph.Within below child := by
  constructor
  · exact stepBelowWithin_eq_some
  · rintro ⟨isChild, within⟩
    obtain ⟨found, found_eq⟩ :=
      Option.isSome_iff_exists.mp (stepBelowWithin_isSome isChild within)
    obtain ⟨foundChild, foundWithin⟩ := stepBelowWithin_eq_some found_eq
    rw [forest.eq_of_common_within isChild foundChild within foundWithin]
    exact found_eq

/-- There is no child toward a state that does not lie strictly below. -/
theorem childToward?_eq_none_iff
    {above below : Nat} :
    graph.childToward? above below = none ↔
      below = above ∨ ¬ graph.Within below above := by
  rw [← not_iff_not, ← ne_eq, Option.ne_none_iff_exists', not_or, not_not]
  constructor
  · rintro ⟨child, found⟩
    obtain ⟨isChild, within⟩ := forest.childToward?_eq_some_iff.mp found
    refine ⟨?_, forest.within_trans within (forest.within_parent isChild)⟩
    rintro rfl
    exact forest.not_within_child isChild within
  · rintro ⟨different, within⟩
    obtain ⟨branch, isChild, withinBranch⟩ := forest.exists_branch within different
    exact ⟨branch, forest.childToward?_eq_some_iff.mpr ⟨isChild, withinBranch⟩⟩

/-! ## The root of a tree -/

/-- Above every state there is a root. -/
theorem exists_root (state : Nat) :
    ∃ root, graph.Within state root ∧ graph.parentOf root = none := by
  induction state using forest.inductionFromAbove with
  | root state isRoot => exact ⟨state, forest.within_refl state, isRoot⟩
  | child state parent below inductionHypothesis =>
      obtain ⟨root, within, isRoot⟩ := inductionHypothesis
      exact ⟨root, forest.within_of_parent below within, isRoot⟩

/-- The root of a state is the only root above it. -/
theorem rootOf_eq_iff
    {state root : Nat} :
    graph.rootOf state = root ↔ graph.Within state root ∧ graph.parentOf root = none := by
  constructor
  · rintro rfl
    obtain ⟨root, within, isRoot⟩ := forest.exists_root state
    rw [rootOf, topWithin_eq_of_root within isRoot]
    exact ⟨within, isRoot⟩
  · rintro ⟨within, isRoot⟩
    exact topWithin_eq_of_root within isRoot

theorem within_rootOf (state : Nat) : graph.Within state (graph.rootOf state) :=
  (forest.rootOf_eq_iff.mp rfl).1

theorem parentOf_rootOf (state : Nat) : graph.parentOf (graph.rootOf state) = none :=
  (forest.rootOf_eq_iff.mp rfl).2

/-- A state and everything above it have the same root. -/
theorem rootOf_eq_of_within
    {state above : Nat}
    (within : graph.Within state above) :
    graph.rootOf state = graph.rootOf above := by
  rw [forest.rootOf_eq_iff]
  exact ⟨forest.within_trans within (forest.within_rootOf above),
    forest.parentOf_rootOf above⟩

/-- A root is its own root. -/
theorem rootOf_of_root
    {state : Nat}
    (isRoot : graph.parentOf state = none) :
    graph.rootOf state = state :=
  forest.rootOf_eq_iff.mpr ⟨forest.within_refl state, isRoot⟩

/-- The root of a state is listed among the roots. -/
theorem rootOf_mem_roots
    {state : Nat}
    (inside : state < graph.size) :
    graph.rootOf state ∈ graph.roots :=
  forest.mem_roots_iff.mpr
    ⟨forest.above_lt_size (forest.within_rootOf state) inside, forest.parentOf_rootOf state⟩

/-! ## The deepest common state -/

/-- A state above another one is what they have in common. -/
theorem meet?_of_within
    {first second : Nat}
    (within : graph.Within second first) :
    graph.meet? first second = some first := by
  have listed : (graph.chain second).contains first = true :=
    List.contains_iff_mem.mpr within
  cases below : graph.parentOf first with
  | none => rw [meet?, forest.chain_of_root below, List.find?_cons_of_pos listed]
  | some parent => rw [meet?, forest.chain_of_parent below, List.find?_cons_of_pos listed]

/-- What a state that is not above another one has in common with it is above the
parent. -/
theorem meet?_of_parent
    {first second parent : Nat}
    (outside : ¬ graph.Within second first)
    (below : graph.parentOf first = some parent) :
    graph.meet? first second = graph.meet? parent second := by
  have unlisted : ¬ (graph.chain second).contains first = true :=
    fun listed => outside (List.contains_iff_mem.mp listed)
  rw [meet?, forest.chain_of_parent below, List.find?_cons_of_neg unlisted, meet?]

/-- What two states have in common lies above both and within everything above both. -/
theorem meet?_eq_some_iff
    {first second common : Nat} :
    graph.meet? first second = some common ↔
      graph.Within first common ∧ graph.Within second common ∧
        ∀ other, graph.Within first other → graph.Within second other →
          graph.Within common other := by
  have sound : ∀ {common}, graph.meet? first second = some common →
      graph.Within first common ∧ graph.Within second common ∧
        ∀ other, graph.Within first other → graph.Within second other →
          graph.Within common other := by
    intro common
    induction first using forest.inductionFromAbove with
    | root state isRoot =>
        intro found
        have firstWithin : graph.Within state common := List.mem_of_find?_eq_some found
        have secondWithin : graph.Within second common :=
          List.contains_iff_mem.mp (List.find?_some found)
        have equal := forest.eq_of_within_root isRoot firstWithin
        refine ⟨firstWithin, secondWithin, fun other otherWithin _ => ?_⟩
        rw [equal]
        exact otherWithin
    | child state parent below inductionHypothesis =>
        intro found
        by_cases within : graph.Within second state
        · rw [forest.meet?_of_within within] at found
          cases found
          exact ⟨forest.within_refl _, within, fun _ otherWithin _ => otherWithin⟩
        · rw [forest.meet?_of_parent within below] at found
          obtain ⟨firstWithin, secondWithin, deepest⟩ := inductionHypothesis found
          refine ⟨forest.within_of_parent below firstWithin, secondWithin, ?_⟩
          intro other otherWithin secondOther
          refine deepest other (forest.parent_within_of_ne otherWithin ?_ below) secondOther
          rintro rfl
          exact within secondOther
  constructor
  · exact sound
  · rintro ⟨firstWithin, secondWithin, deepest⟩
    have exists_common : (graph.meet? first second).isSome :=
      List.find?_isSome.mpr ⟨common, firstWithin, List.contains_iff_mem.mpr secondWithin⟩
    obtain ⟨found, found_eq⟩ := Option.isSome_iff_exists.mp exists_common
    obtain ⟨foundFirst, foundSecond, foundDeepest⟩ := sound found_eq
    rw [found_eq, forest.within_antisymm (deepest found foundFirst foundSecond)
      (foundDeepest common firstWithin secondWithin)]

/-- Two states of one tree have a state in common. -/
theorem meet?_isSome_of_sameTree
    {first second : Nat}
    (sameTree : graph.rootOf first = graph.rootOf second) :
    (graph.meet? first second).isSome := by
  refine List.find?_isSome.mpr ⟨graph.rootOf first, forest.within_rootOf first, ?_⟩
  rw [List.contains_iff_mem, sameTree]
  exact forest.within_rootOf second

end IsForest
end Graph
end Statechart
