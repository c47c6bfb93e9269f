import Statechart.Proofs.Plan.Entries

/-!
# Plans of external transitions

A transition affects the regions of its domain that hold one of its ends, or the whole
tree if it has no domain. Its plan leaves exactly the active states of the affected part
and enters exactly those that are reached through chosen children. Nothing else changes,
and every step of the plan is sound.
-/

namespace Statechart

variable {κ : Type} {graph : Graph κ} {configuration : Configuration}

namespace Plan

open Statechart.Graph

/-! ## The domain -/

/-- A transition without a domain leads to the root above its source. Any other leads
from a state within its domain to a state strictly below the domain. -/
theorem domain?_cases
    (forest : graph.IsForest)
    {source target : Nat}
    (sameTree : graph.rootOf source = graph.rootOf target) :
    (domain? graph source target = none ∧ graph.parentOf target = none ∧
        graph.Within source target) ∨
      ∃ domain branch, domain? graph source target = some domain ∧
        graph.parentOf branch = some domain ∧ graph.Within target branch ∧
          graph.Within source domain := by
  unfold domain?
  by_cases within : graph.Within source target
  · rw [if_pos (isWithin_iff.mpr within)]
    cases below : graph.parentOf target with
    | none => exact .inl ⟨rfl, rfl, within⟩
    | some domain =>
        exact .inr ⟨domain, target, rfl, below, forest.within_refl target,
          forest.within_trans within (forest.within_parent below)⟩
  · rw [if_neg fun found => within (isWithin_iff.mp found)]
    obtain ⟨domain, found⟩ :=
      Option.isSome_iff_exists.mp (forest.meet?_isSome_of_sameTree sameTree)
    obtain ⟨sourceWithin, targetWithin, _⟩ := forest.meet?_eq_some_iff.mp found
    have different : target ≠ domain := by
      rintro rfl
      exact within sourceWithin
    obtain ⟨branch, below, branchWithin⟩ := forest.exists_branch targetWithin different
    exact .inr ⟨domain, branch, found, below, branchWithin, sourceWithin⟩

/-- A region of the domain holds the source or the target. -/
def HoldsEnd (graph : Graph κ) (source target domain index : Nat) : Prop :=
  ∃ branch, graph.parentOf branch = some domain ∧ graph.regionOf branch = index ∧
    (graph.Within source branch ∨ graph.Within target branch)

/-- The affected regions are those that hold an end. -/
theorem mem_affectedRegions_iff
    (forest : graph.IsForest)
    {source target domain index : Nat} :
    index ∈ affectedRegions graph domain source target ↔
      HoldsEnd graph source target domain index := by
  unfold affectedRegions
  rw [List.mem_filter, List.contains_iff_mem, List.mem_map, List.mem_range]
  simp only [List.mem_filterMap, forest.childToward?_eq_some_iff]
  constructor
  · rintro ⟨_, branch, ⟨ending, isEnd, below, within⟩, inRegion⟩
    refine ⟨branch, below, inRegion, ?_⟩
    rcases List.mem_cons.mp isEnd with rfl | isEnd
    · exact .inl within
    · rw [List.mem_singleton.mp isEnd] at within
      exact .inr within
  · rintro ⟨branch, below, rfl, withinSource | withinTarget⟩
    · exact ⟨forest.regionOf_lt below, branch, ⟨source, by simp, below, withinSource⟩, rfl⟩
    · exact ⟨forest.regionOf_lt below, branch, ⟨target, by simp, below, withinTarget⟩, rfl⟩

theorem sorted_affectedRegions (source target domain : Nat) :
    (affectedRegions graph domain source target).Pairwise (· < ·) :=
  List.Pairwise.filter _ List.pairwise_lt_range

theorem lt_of_mem_affectedRegions
    {source target domain index : Nat}
    (member : index ∈ affectedRegions graph domain source target) :
    index < (graph.regionsOf domain).length :=
  List.mem_range.mp (List.mem_filter.mp member).1

/-! ## The affected part -/

/-- A state is affected by a transition if it lies in a region of the domain that holds
an end, or in the tree of the target if there is no domain. -/
def IsAffected (graph : Graph κ) (source target state : Nat) : Prop :=
  match domain? graph source target with
  | none => graph.rootOf state = graph.rootOf target
  | some domain =>
      ∃ branch, graph.parentOf branch = some domain ∧
        HoldsEnd graph source target domain (graph.regionOf branch) ∧
          graph.Within state branch

theorem isAffected_of_domain_none
    {source target state : Nat}
    (noDomain : domain? graph source target = none) :
    IsAffected graph source target state ↔ graph.rootOf state = graph.rootOf target := by
  rw [IsAffected, noDomain]

theorem isAffected_of_domain_some
    {source target domain state : Nat}
    (hasDomain : domain? graph source target = some domain) :
    IsAffected graph source target state ↔
      ∃ branch, graph.parentOf branch = some domain ∧
        HoldsEnd graph source target domain (graph.regionOf branch) ∧
          graph.Within state branch := by
  rw [IsAffected, hasDomain]

namespace IsAffected

variable {source target state other parent : Nat} (forest : graph.IsForest)

include forest

/-- Whatever lies below an affected state is affected. -/
theorem of_within
    (affected : IsAffected graph source target state)
    (within : graph.Within other state) :
    IsAffected graph source target other := by
  cases domain_eq : domain? graph source target with
  | none =>
      rw [isAffected_of_domain_none domain_eq] at affected ⊢
      rw [forest.rootOf_eq_of_within within, affected]
  | some domain =>
      rw [isAffected_of_domain_some domain_eq] at affected ⊢
      obtain ⟨branch, below, holdsEnd, stateWithin⟩ := affected
      exact ⟨branch, below, holdsEnd, forest.within_trans within stateWithin⟩

/-- The parent of an affected state is affected or the domain. -/
theorem parent_or_domain
    (affected : IsAffected graph source target state)
    (below : graph.parentOf state = some parent) :
    IsAffected graph source target parent ∨ domain? graph source target = some parent := by
  cases domain_eq : domain? graph source target with
  | none =>
      rw [isAffected_of_domain_none domain_eq] at affected ⊢
      rw [← forest.rootOf_eq_of_within (forest.within_parent below)]
      exact .inl affected
  | some domain =>
      rw [isAffected_of_domain_some domain_eq] at affected ⊢
      obtain ⟨branch, branchBelow, holdsEnd, within⟩ := affected
      by_cases equal : state = branch
      · rw [equal, branchBelow] at below
        exact .inr below
      · exact .inl ⟨branch, branchBelow, holdsEnd,
          forest.parent_within_of_ne within equal below⟩

/-- Everything in the region of an affected state is affected. -/
theorem sibling
    (affected : IsAffected graph source target state)
    (below : graph.parentOf state = some parent)
    (otherBelow : graph.parentOf other = some parent)
    (sameRegion : graph.regionOf other = graph.regionOf state) :
    IsAffected graph source target other := by
  rcases affected.parent_or_domain forest below with parentAffected | domain_eq
  · exact parentAffected.of_within forest (forest.within_parent otherBelow)
  · rw [isAffected_of_domain_some domain_eq] at affected ⊢
    obtain ⟨branch, branchBelow, holdsEnd, within⟩ := affected
    have same := forest.eq_of_common_within below branchBelow
      (forest.within_refl state) within
    rw [← same, ← sameRegion] at holdsEnd
    exact ⟨other, otherBelow, holdsEnd, forest.within_refl other⟩

end IsAffected

/-- The domain itself is not affected, and neither is anything above it. -/
theorem not_isAffected_of_domain_within
    (forest : graph.IsForest)
    {source target domain state : Nat}
    (hasDomain : domain? graph source target = some domain)
    (within : graph.Within domain state) :
    ¬ IsAffected graph source target state := by
  rw [isAffected_of_domain_some hasDomain]
  rintro ⟨branch, below, _, stateWithin⟩
  exact forest.not_within_child below (forest.within_trans within stateWithin)

/-! ## The states that are left -/

/-- The plan leaves exactly the active states of the affected part. -/
theorem mem_exits_external_iff
    (forest : graph.IsForest)
    (consistent : configuration.IsConsistent graph)
    {source target state : Nat} :
    state ∈ (external graph configuration source target).exits ↔
      configuration.isActive state = true ∧ IsAffected graph source target state := by
  unfold external
  cases domain_eq : domain? graph source target with
  | none =>
      rw [isAffected_of_domain_none domain_eq]
      simp only [wholeTree]
      by_cases rootActive : configuration.isActive (graph.rootOf target) = true
      · rw [if_pos rootActive, mem_exitsBelow_iff forest consistent rootActive]
        constructor
        · rintro ⟨active, within⟩
          refine ⟨active, ?_⟩
          rw [forest.rootOf_eq_of_within within,
            forest.rootOf_of_root (forest.parentOf_rootOf target)]
        · rintro ⟨active, sameRoot⟩
          exact ⟨active, sameRoot ▸ forest.within_rootOf state⟩
      · rw [if_neg rootActive]
        constructor
        · intro member
          contradiction
        · rintro ⟨active, sameRoot⟩
          refine absurd (consistent.active_of_within forest active ?_) rootActive
          exact sameRoot ▸ forest.within_rootOf state
  | some domain =>
      rw [isAffected_of_domain_some domain_eq]
      simp only [List.mem_flatMap]
      constructor
      · rintro ⟨index, affected, member⟩
        obtain ⟨active, branch, below, rfl, within⟩ :=
          (mem_exitsIn_iff forest consistent).mp member
        exact ⟨active, branch, below, (mem_affectedRegions_iff forest).mp affected, within⟩
      · rintro ⟨active, branch, below, holdsEnd, within⟩
        exact ⟨graph.regionOf branch, (mem_affectedRegions_iff forest).mpr holdsEnd,
          (mem_exitsIn_iff forest consistent).mpr ⟨active, branch, below, rfl, within⟩⟩

/-- The plan leaves states from below to above and region by region. -/
theorem pairwise_exits_external
    (forest : graph.IsForest)
    (consistent : configuration.IsConsistent graph)
    (source target : Nat) :
    (external graph configuration source target).exits.Pairwise (LeftBefore graph) := by
  unfold external
  cases domain? graph source target with
  | none =>
      simp only [wholeTree]
      by_cases rootActive : configuration.isActive (graph.rootOf target) = true
      · rw [if_pos rootActive]
        exact pairwise_exitsBelow forest consistent rootActive
      · rw [if_neg rootActive]
        exact List.Pairwise.nil
  | some domain =>
      exact pairwise_exitsIn forest consistent
        (sorted_affectedRegions source target domain)
        fun _ _ active => pairwise_exitsBelow forest consistent active

/-! ## The states that are entered -/

/-- What is entered without a domain: everything reached from the root. -/
theorem entries_external_of_domain_none
    (forest : graph.IsForest)
    {source target : Nat}
    (noDomain : domain? graph source target = none) :
    (external graph configuration source target).entries =
      entered graph target (graph.rootOf target) := by
  rw [external, noDomain]
  simp only [wholeTree]
  rw [pathBelow_none forest, entered, routeTo_of_within (forest.within_rootOf target)]

/-- What is entered in a domain: what is entered in its affected regions. -/
theorem entries_external_of_domain_some
    {source target domain : Nat}
    (hasDomain : domain? graph source target = some domain)
    (within : graph.Within target domain) :
    (external graph configuration source target).entries =
      (affectedRegions graph domain source target).flatMap
        (enteredIn graph target domain) := by
  have route : pathBelow graph (some domain) target = routeTo graph target domain :=
    (routeTo_of_within within).symm
  rw [external, hasDomain]
  simp only [route]
  rfl

/-- The plan enters exactly the states of the affected part that are reached through
chosen children. -/
theorem mem_entries_external_iff
    (forest : graph.IsForest)
    {source target state : Nat}
    (sameTree : graph.rootOf source = graph.rootOf target) :
    state ∈ (external graph configuration source target).entries ↔
      IsAffected graph source target state ∧
        ∀ above, graph.Within state above → IsAffected graph source target above →
          graph.IsChosen target above := by
  rcases domain?_cases forest sameTree with
    ⟨noDomain, isRoot, _⟩ | ⟨domain, branch, hasDomain, below, within, _⟩
  · rw [entries_external_of_domain_none forest noDomain, forest.rootOf_of_root isRoot,
      mem_entered_iff forest, isAffected_of_domain_none noDomain,
      forest.rootOf_of_root isRoot]
    constructor
    · rintro ⟨stateWithin, chosen⟩
      have stateRoot := forest.rootOf_eq_iff.mpr ⟨stateWithin, isRoot⟩
      refine ⟨stateRoot, fun above upper affected => ?_⟩
      rw [isAffected_of_domain_none noDomain, forest.rootOf_of_root isRoot] at affected
      by_cases equal : above = target
      · rw [equal]
        exact isChosen_of_within forest (forest.within_refl target)
      · exact chosen above upper (affected ▸ forest.within_rootOf above) equal
    · rintro ⟨stateRoot, chosen⟩
      refine ⟨stateRoot ▸ forest.within_rootOf state, fun above upper lower _ => ?_⟩
      refine chosen above upper ?_
      rw [isAffected_of_domain_none noDomain, forest.rootOf_of_root isRoot]
      exact forest.rootOf_eq_iff.mpr ⟨lower, isRoot⟩
  · have targetWithin := forest.within_trans within (forest.within_parent below)
    rw [entries_external_of_domain_some hasDomain targetWithin, List.mem_flatMap]
    constructor
    · rintro ⟨index, listed, member⟩
      obtain ⟨⟨_, chosen⟩, child, childBelow, rfl, childWithin⟩ :=
        (mem_enteredIn_iff forest (lt_of_mem_affectedRegions listed)).mp member
      have affected : IsAffected graph source target state :=
        (isAffected_of_domain_some hasDomain).mpr
          ⟨child, childBelow, (mem_affectedRegions_iff forest).mp listed, childWithin⟩
      refine ⟨affected, fun above upper aboveAffected => chosen above upper ?_ ?_⟩
      · obtain ⟨other, otherBelow, _, aboveWithin⟩ :=
          (isAffected_of_domain_some hasDomain).mp aboveAffected
        exact forest.within_trans aboveWithin (forest.within_parent otherBelow)
      · rintro rfl
        exact not_isAffected_of_domain_within forest hasDomain
          (forest.within_refl above) aboveAffected
    · rintro ⟨affected, chosen⟩
      obtain ⟨child, childBelow, holdsEnd, childWithin⟩ :=
        (isAffected_of_domain_some hasDomain).mp affected
      have listed := (mem_affectedRegions_iff forest).mpr holdsEnd
      refine ⟨graph.regionOf child, listed,
        (mem_enteredIn_iff forest (lt_of_mem_affectedRegions listed)).mpr
          ⟨⟨forest.within_trans childWithin (forest.within_parent childBelow), ?_⟩,
            child, childBelow, rfl, childWithin⟩⟩
      intro above upper lower different
      obtain ⟨other, otherBelow, otherWithin⟩ := forest.exists_branch lower different
      have same := forest.eq_of_common_within childBelow otherBelow childWithin
        (forest.within_trans upper otherWithin)
      refine chosen above upper ((isAffected_of_domain_some hasDomain).mpr
        ⟨other, otherBelow, ?_, otherWithin⟩)
      rw [← same]
      exact holdsEnd

/-- The plan enters states from above to below. -/
theorem pairwise_entries_external
    (forest : graph.IsForest)
    {source target : Nat}
    (sameTree : graph.rootOf source = graph.rootOf target) :
    (external graph configuration source target).entries.Pairwise fun earlier later =>
      ¬ graph.Within earlier later := by
  rcases domain?_cases forest sameTree with
    ⟨noDomain, _, _⟩ | ⟨domain, branch, hasDomain, below, within, _⟩
  · rw [entries_external_of_domain_none forest noDomain]
    exact pairwise_entered forest target _
  · rw [entries_external_of_domain_some hasDomain
      (forest.within_trans within (forest.within_parent below))]
    exact pairwise_enteredIn forest
      ((sorted_affectedRegions source target domain).imp Nat.ne_of_lt)
      (fun _ => lt_of_mem_affectedRegions) fun child _ => pairwise_entered forest target child

end Plan
end Statechart
