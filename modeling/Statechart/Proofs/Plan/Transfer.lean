import Mathlib.Data.List.Basic
import Statechart.Proofs.Configuration.Restored
import Statechart.Proofs.Graph.Validated
import Statechart.Proofs.Plan.Outcome

/-!
# What the plan of an external transition promises

The domain of a transition is the parent of the target if the source lies within the
target, and the deepest common state of both ends otherwise. The plan leaves the active
states in the regions of the domain that hold an end, from below to above and region by
region, and enters states from above to below. In the end the way to the target is
active, and every region that was entered holds one active child.
-/

namespace Statechart

/-- Of two members of an ordered list, the one that cannot come second comes first. -/
theorem pair_sublist_of_pairwise
    {α : Type}
    {precedes : α → α → Prop}
    {list : List α}
    (ordered : list.Pairwise precedes)
    {first second : α}
    (firstMember : first ∈ list)
    (secondMember : second ∈ list)
    (different : first ≠ second)
    (notAfter : ¬ precedes second first) :
    [first, second].Sublist list := by
  induction list with
  | nil => contradiction
  | cons head rest inductionHypothesis =>
      obtain ⟨headFirst, ordered⟩ := List.pairwise_cons.mp ordered
      rcases List.mem_cons.mp firstMember with rfl | firstMember
      · rcases List.mem_cons.mp secondMember with rfl | secondMember
        · contradiction
        · exact (List.singleton_sublist.mpr secondMember).cons_cons first
      · rcases List.mem_cons.mp secondMember with equal | secondMember
        · exact absurd (equal ▸ headFirst first firstMember) notAfter
        · exact (inductionHypothesis ordered firstMember secondMember).cons head

variable {κ : Type} {graph : Graph κ} {configuration : Configuration}

namespace Plan

open Statechart.Graph

/-- A plan transfers activity from a source to a target. -/
structure IsTransfer
    (graph : Graph κ)
    (configuration : Configuration)
    (source target : Nat)
    (plan : Plan) : Prop where
  /-- A target at or above the source lies directly below the domain. -/
  domain_of_within :
    graph.Within source target → domain? graph source target = graph.parentOf target
  /-- Otherwise the domain is the deepest state above both ends. -/
  domain_of_not_within :
    ¬ graph.Within source target →
      ∃ domain, domain? graph source target = some domain ∧
        graph.Within source domain ∧ graph.Within target domain ∧
          ∀ other, graph.Within source other → graph.Within target other →
            graph.Within domain other
  /-- No state is left twice. -/
  exits_nodup : plan.exits.Nodup
  /-- In a domain the active states are left that lie in a region with an end. -/
  mem_exits_of_domain {domain state : Nat} :
    domain? graph source target = some domain →
      (state ∈ plan.exits ↔
        configuration.isActive state = true ∧
          ∃ branch, graph.parentOf branch = some domain ∧ graph.Within state branch ∧
            HoldsEnd graph source target domain (graph.regionOf branch))
  /-- Without a domain all active states of the tree are left. -/
  mem_exits_of_tree {state : Nat} :
    domain? graph source target = none →
      (state ∈ plan.exits ↔
        configuration.isActive state = true ∧ graph.rootOf state = graph.rootOf target)
  /-- A state is left after every active state strictly below it. -/
  exits_below_first {state below : Nat} :
    state ∈ plan.exits → configuration.isActive below = true → graph.Within below state →
      below ≠ state → [below, state].Sublist plan.exits
  /-- States in different regions of one state are left in the order of the regions. -/
  exits_by_region {earlier later first second parent : Nat} :
    earlier ∈ plan.exits → later ∈ plan.exits →
      graph.parentOf first = some parent → graph.parentOf second = some parent →
        graph.Within earlier first → graph.Within later second →
          graph.regionOf first < graph.regionOf second → [earlier, later].Sublist plan.exits
  /-- No state is entered twice. -/
  entries_nodup : plan.entries.Nodup
  /-- A state is entered after its parent, unless it is a root or a child of the
  domain. -/
  entries_parent_first {state : Nat} :
    state ∈ plan.entries →
      graph.parentOf state = none ∨
        (∃ domain, domain? graph source target = some domain ∧
          graph.parentOf state = some domain) ∨
        ∃ parent, graph.parentOf state = some parent ∧ [parent, state].Sublist plan.entries
  /-- In the end the way from the domain down to the target is active. -/
  way_active {state : Nat} :
    graph.Within target state →
      (∀ domain, domain? graph source target = some domain → graph.Within state domain) →
        (plan.outcome configuration).isActive state = true
  /-- In the end every region of an entered state, and every region of the domain that
  holds an end, has one active child: the one toward the target if there is one, and the
  initial child otherwise. -/
  region_refilled {state index : Nat} {region : Region} :
    (graph.regionsOf state)[index]? = some region →
      (state ∈ plan.entries ∨
        domain? graph source target = some state ∧
          HoldsEnd graph source target state index) →
        ∃ chosen ∈ region.children,
          (∀ child ∈ region.children,
            (plan.outcome configuration).isActive child = true ↔ child = chosen) ∧
          (graph.Within target chosen ∨
            chosen = region.initial ∧
              ∀ child ∈ region.children, ¬ graph.Within target child)
  /-- In the end exactly the entered states of the affected part are active. -/
  affected_active_iff {state : Nat} :
    IsAffected graph source target state →
      ((plan.outcome configuration).isActive state = true ↔ state ∈ plan.entries)
  /-- In the end every other state is as it was. -/
  unaffected_unchanged {state : Nat} :
    ¬ IsAffected graph source target state →
      (plan.outcome configuration).isActive state = configuration.isActive state

/-- The chosen child of a region is the one toward the target, or the initial child if
the target lies elsewhere. -/
theorem chosenIn?_cases
    (forest : graph.IsForest)
    {target state index chosen : Nat}
    {region : Region}
    (place : (graph.regionsOf state)[index]? = some region)
    (found : graph.chosenIn? target state index = some chosen) :
    graph.Within target chosen ∨
      chosen = region.initial ∧ ∀ child ∈ region.children, ¬ graph.Within target child := by
  by_cases within : graph.Within target chosen
  · exact .inl within
  · have elsewhere : ∀ child, graph.parentOf child = some state →
        graph.regionOf child = index → ¬ graph.Within target child := by
      intro child below inRegion childWithin
      have toward := chosenIn?_of_within forest below childWithin
      rw [inRegion, found] at toward
      cases toward
      exact within childWithin
    right
    constructor
    · rw [chosenIn?_of_not_within forest elsewhere, place, Option.map_some] at found
      exact (Option.some.inj found).symm
    · intro child listed
      obtain ⟨below, inRegion⟩ := (forest.mem_children_iff place).mp listed
      exact elsewhere child below inRegion

/-- The domain of a transition within its target is the parent of the target. -/
theorem domain?_of_within
    {source target : Nat}
    (within : graph.Within source target) :
    domain? graph source target = graph.parentOf target :=
  if_pos (isWithin_iff.mpr within)

/-- The domain of any other transition in a tree is the deepest common state. -/
theorem domain?_of_not_within
    (forest : graph.IsForest)
    {source target : Nat}
    (sameTree : graph.rootOf source = graph.rootOf target)
    (outside : ¬ graph.Within source target) :
    ∃ domain, domain? graph source target = some domain ∧
      graph.Within source domain ∧ graph.Within target domain ∧
        ∀ other, graph.Within source other → graph.Within target other →
          graph.Within domain other := by
  obtain ⟨domain, found⟩ :=
    Option.isSome_iff_exists.mp (forest.meet?_isSome_of_sameTree sameTree)
  refine ⟨domain, ?_, forest.meet?_eq_some_iff.mp found⟩
  rw [domain?, if_neg fun within => outside (isWithin_iff.mp within)]
  exact found

section External

variable
  {source target : Nat}
  (forest : graph.IsForest)
  (consistent : configuration.IsConsistent graph)
  (active : configuration.isActive source = true)
  (sameTree : graph.rootOf source = graph.rootOf target)

include forest

include consistent in
/-- A planned state is left after the active states strictly below it. -/
theorem pair_exits_of_within
    {state below : Nat}
    (member : state ∈ (external graph configuration source target).exits)
    (belowActive : configuration.isActive below = true)
    (within : graph.Within below state)
    (different : below ≠ state) :
    [below, state].Sublist (external graph configuration source target).exits := by
  have affected := ((mem_exits_external_iff forest consistent).mp member).2
  have belowMember : below ∈ (external graph configuration source target).exits :=
    (mem_exits_external_iff forest consistent).mpr
      ⟨belowActive, affected.of_within forest within⟩
  exact pair_sublist_of_pairwise (pairwise_exits_external forest consistent source target)
    belowMember member different fun before => before.not_within within

include consistent in
/-- Planned states in different regions are left in the order of the regions. -/
theorem pair_exits_of_region_lt
    {earlier later first second parent : Nat}
    (earlierMember : earlier ∈ (external graph configuration source target).exits)
    (laterMember : later ∈ (external graph configuration source target).exits)
    (firstBelow : graph.parentOf first = some parent)
    (secondBelow : graph.parentOf second = some parent)
    (earlierWithin : graph.Within earlier first)
    (laterWithin : graph.Within later second)
    (ordered : graph.regionOf first < graph.regionOf second) :
    [earlier, later].Sublist (external graph configuration source target).exits := by
  refine pair_sublist_of_pairwise (pairwise_exits_external forest consistent source target)
    earlierMember laterMember ?_ fun before => ?_
  · rintro rfl
    rw [forest.eq_of_common_within firstBelow secondBelow earlierWithin laterWithin] at ordered
    exact Nat.lt_irrefl _ ordered
  · exact Nat.not_le_of_gt ordered
      (before.region_le secondBelow firstBelow laterWithin earlierWithin)

include sameTree in
/-- A planned state whose parent is not the domain is entered after its parent. -/
theorem pair_entries_of_parent
    {state parent : Nat}
    (member : state ∈ (external graph configuration source target).entries)
    (below : graph.parentOf state = some parent) :
    domain? graph source target = some parent ∨
      [parent, state].Sublist (external graph configuration source target).entries := by
  obtain ⟨affected, chosen⟩ := (mem_entries_external_iff forest sameTree).mp member
  rcases affected.parent_or_domain forest below with parentAffected | hasDomain
  · right
    have parentMember : parent ∈ (external graph configuration source target).entries :=
      (mem_entries_external_iff forest sameTree).mpr ⟨parentAffected,
        fun above upper => chosen above (forest.within_of_parent below upper)⟩
    exact pair_sublist_of_pairwise (pairwise_entries_external forest sameTree) parentMember
      member (forest.ne_parent below).symm fun apart => apart (forest.within_parent below)
  · exact .inl hasDomain

include consistent active sameTree

/-- In the end the way from the domain down to the target is active. -/
theorem isActive_outcome_of_target_within
    {state : Nat}
    (within : graph.Within target state)
    (inDomain : ∀ domain, domain? graph source target = some domain →
      graph.Within state domain) :
    ((external graph configuration source target).outcome configuration).isActive state =
      true := by
  by_cases affected : IsAffected graph source target state
  · rw [isActive_outcome_of_isAffected forest consistent active sameTree affected]
    exact mem_entries_of_target_within forest sameTree within affected
  · rw [isActive_outcome_of_not_isAffected forest consistent active sameTree affected]
    rcases domain?_cases forest sameTree with
      ⟨noDomain, _, _⟩ | ⟨domain, _, hasDomain, _, _, _⟩
    · rw [isAffected_of_domain_none noDomain] at affected
      exact absurd (forest.rootOf_eq_of_within within).symm affected
    · rw [isAffected_of_domain_some hasDomain] at affected
      by_cases equal : state = domain
      · rw [equal]
        exact domain_active forest consistent active sameTree hasDomain
      · obtain ⟨branch, below, stateWithin⟩ :=
          forest.exists_branch (inDomain domain hasDomain) equal
        have holdsEnd : HoldsEnd graph source target domain (graph.regionOf branch) :=
          ⟨branch, below, rfl, .inr (forest.within_trans within stateWithin)⟩
        exact absurd ⟨branch, below, holdsEnd, stateWithin⟩ affected

/-- In the end every region that was entered has one active child, the chosen one. -/
theorem exists_chosen_of_refilled
    {state index : Nat}
    {region : Region}
    (place : (graph.regionsOf state)[index]? = some region)
    (refilled : state ∈ (external graph configuration source target).entries ∨
      domain? graph source target = some state ∧ HoldsEnd graph source target state index) :
    ∃ chosen ∈ region.children,
      (∀ child ∈ region.children,
        ((external graph configuration source target).outcome configuration).isActive child =
          true ↔ child = chosen) ∧
      (graph.Within target chosen ∨
        chosen = region.initial ∧
          ∀ child ∈ region.children, ¬ graph.Within target child) := by
  have inRange : index < (graph.regionsOf state).length :=
    (List.getElem?_eq_some_iff.mp place).1
  obtain ⟨chosen, found⟩ := exists_chosenIn inRange target
  refine ⟨chosen, (forest.mem_children_iff place).mpr (chosenIn?_below forest found), ?_,
    chosenIn?_cases forest place found⟩
  intro child listed
  obtain ⟨below, rfl⟩ := (forest.mem_children_iff place).mp listed
  rw [isActive_outcome_child_iff forest consistent active sameTree below refilled, found,
    Option.some.injEq, eq_comm]

end External

/-- In a validated graph and a consistent configuration, the plan of an external
transition from an active source transfers activity to every target in its tree. -/
theorem isTransfer_external
    {η : Type}
    [DecidableEq κ]
    [StateKey κ]
    {blueprint : Blueprint κ η}
    {source target : Nat}
    (validated : blueprint.validate = .ok graph)
    (consistent : configuration.IsConsistent graph)
    (active : configuration.isActive source = true)
    (sameTree : graph.rootOf source = graph.rootOf target) :
    (external graph configuration source target).IsTransfer graph configuration source
      target := by
  have forest := blueprint.isForest_of_validate validated
  have within_of_eq {first second : Nat} (equal : first = second) :
      graph.Within second first := by
    rw [equal]
    exact forest.within_refl second
  exact {
    domain_of_within := domain?_of_within
    domain_of_not_within := domain?_of_not_within forest sameTree
    exits_nodup := (pairwise_exits_external forest consistent source target).imp
      fun before equal => before.not_within (within_of_eq equal)
    mem_exits_of_domain := by
      intro domain state hasDomain
      rw [mem_exits_external_iff forest consistent, isAffected_of_domain_some hasDomain]
      simp only [and_comm]
    mem_exits_of_tree := by
      intro state noDomain
      rw [mem_exits_external_iff forest consistent, isAffected_of_domain_none noDomain]
    exits_below_first := pair_exits_of_within forest consistent
    exits_by_region := pair_exits_of_region_lt forest consistent
    entries_nodup := (pairwise_entries_external forest sameTree).imp
      fun apart equal => apart (within_of_eq equal.symm)
    entries_parent_first := by
      intro state member
      cases below : graph.parentOf state with
      | none => exact .inl rfl
      | some parent =>
          right
          rcases pair_entries_of_parent forest sameTree member below with hasDomain | ordered
          · exact .inl ⟨parent, hasDomain, rfl⟩
          · exact .inr ⟨parent, rfl, ordered⟩
    way_active := isActive_outcome_of_target_within forest consistent active sameTree
    region_refilled := exists_chosen_of_refilled forest consistent active sameTree
    affected_active_iff := isActive_outcome_of_isAffected forest consistent active sameTree
    unaffected_unchanged :=
      isActive_outcome_of_not_isAffected forest consistent active sameTree }

/-- The configuration of a chart with two regions in which no initial child is active. -/
def greenLoud : Configuration := ⟨#[true, false, true, false, true]⟩

/-- A transition across the regions leaves and enters both of them: the region of the
source falls back to its initial child. -/
theorem isTransfer_across_regions :
    (Blueprint.twoRegions Unit).validate = .ok (Blueprint.twoRegions Unit).graph ∧
      greenLoud.IsConsistent (Blueprint.twoRegions Unit).graph ∧
      greenLoud.isActive 2 = true ∧
      (Blueprint.twoRegions Unit).graph.rootOf 2 = (Blueprint.twoRegions Unit).graph.rootOf 4 ∧
      external (Blueprint.twoRegions Unit).graph greenLoud 2 4 = ⟨[2, 4], [1, 4]⟩ ∧
      (external (Blueprint.twoRegions Unit).graph greenLoud 2 4).IsTransfer
        (Blueprint.twoRegions Unit).graph greenLoud 2 4 := by
  have validated := Blueprint.validate_twoRegions Unit
  have consistent : greenLoud.IsConsistent (Blueprint.twoRegions Unit).graph := by
    have restored : Configuration.ofLeaves (Blueprint.twoRegions Unit).graph [2, 4] =
        .ok greenLoud := by cbv
    exact Configuration.isConsistent_of_ofLeaves
      ((Blueprint.twoRegions Unit).isForest_of_validate validated) restored
  have active : greenLoud.isActive 2 = true := by cbv
  have sameTree : (Blueprint.twoRegions Unit).graph.rootOf 2 =
      (Blueprint.twoRegions Unit).graph.rootOf 4 := by cbv
  exact ⟨validated, consistent, active, sameTree, by cbv,
    isTransfer_external validated consistent active sameTree⟩

end Plan
end Statechart
