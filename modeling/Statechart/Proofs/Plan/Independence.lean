import Statechart.Proofs.Plan.Transfer

/-!
# Independence of orthogonal regions

The plan of an external transition reads and writes only the states that the transition
affects. If both ends lie below a composite state in one of its regions, so does
everything affected. Transitions in different regions of a composite state therefore
neither see nor disturb each other, and may be taken in either order.
-/

namespace Statechart

variable {κ : Type} {graph : Graph κ} {configuration : Configuration}

/-! ## States below a region -/

namespace Graph

/-- A state lies strictly below a composite state, in the region with a given index. -/
def WithinRegion (graph : Graph κ) (composite index state : Nat) : Prop :=
  ∃ region, (graph.regionsOf composite)[index]? = some region ∧
    ∃ child ∈ region.children, graph.Within state child

namespace IsForest

variable (forest : graph.IsForest)

include forest

/-- What lies in a region lies within a child that refers to the region. -/
theorem withinRegion_iff
    {composite index state : Nat} :
    graph.WithinRegion composite index state ↔
      ∃ child, graph.parentOf child = some composite ∧ graph.regionOf child = index ∧
        graph.Within state child := by
  constructor
  · rintro ⟨region, place, child, listed, within⟩
    obtain ⟨below, inRegion⟩ := (forest.mem_children_iff place).mp listed
    exact ⟨child, below, inRegion, within⟩
  · rintro ⟨child, below, rfl, within⟩
    obtain ⟨region, place, listed⟩ := forest.exists_region below
    exact ⟨region, place, child, listed, within⟩

/-- No state lies in two regions of one composite state. -/
theorem region_eq_of_withinRegion
    {composite first second state : Nat}
    (inFirst : graph.WithinRegion composite first state)
    (inSecond : graph.WithinRegion composite second state) :
    first = second := by
  obtain ⟨one, oneBelow, rfl, withinOne⟩ := forest.withinRegion_iff.mp inFirst
  obtain ⟨other, otherBelow, rfl, withinOther⟩ := forest.withinRegion_iff.mp inSecond
  rw [forest.eq_of_common_within oneBelow otherBelow withinOne withinOther]

/-- What lies in a region is a state. -/
theorem lt_size_of_withinRegion
    {composite index state : Nat}
    (inRegion : graph.WithinRegion composite index state) :
    state < graph.size := by
  obtain ⟨child, below, _, within⟩ := forest.withinRegion_iff.mp inRegion
  exact forest.lt_size_of_within within (lt_size_of_parentOf below)

/-- What lies in a region lies in the tree of the composite state. -/
theorem rootOf_of_withinRegion
    {composite index state : Nat}
    (inRegion : graph.WithinRegion composite index state) :
    graph.rootOf state = graph.rootOf composite := by
  obtain ⟨child, below, _, within⟩ := forest.withinRegion_iff.mp inRegion
  exact forest.rootOf_eq_of_within (forest.within_trans within (forest.within_parent below))

end IsForest
end Graph

namespace Plan

open Statechart.Graph

/-! ## What a plan reads -/

/-- What is left with a state depends only on which states within it are active. -/
theorem exitsWithin_congr
    (forest : graph.IsForest)
    {first second : Configuration}
    {bound state : Nat}
    (agree : ∀ other, graph.Within other state →
      first.isActive other = second.isActive other) :
    exitsWithin graph first bound state = exitsWithin graph second bound state := by
  induction bound generalizing state with
  | zero => rfl
  | succ bound inductionHypothesis =>
      rw [exitsWithin_succ, exitsWithin_succ]
      congr 1
      refine List.flatMap_congr fun region member => ?_
      obtain ⟨index, place⟩ := List.mem_iff_getElem?.mp member
      have child_within {child : Nat} (listed : child ∈ region.children) :
          graph.Within child state :=
        forest.within_parent ((forest.mem_children_iff place).mp listed).1
      have sameChild : first.activeIn? region = second.activeIn? region :=
        List.find?_congr fun child listed => agree child (child_within listed)
      rw [sameChild]
      cases found : second.activeIn? region with
      | none => rfl
      | some child =>
          have within := child_within (List.mem_of_find?_eq_some found)
          exact inductionHypothesis fun other lower =>
            agree other (forest.within_trans lower within)

/-- The plan of an external transition depends only on which of the affected states are
active. -/
theorem external_congr
    (forest : graph.IsForest)
    {first second : Configuration}
    {source target : Nat}
    (agree : ∀ state, IsAffected graph source target state →
      first.isActive state = second.isActive state) :
    external graph first source target = external graph second source target := by
  unfold external
  cases domain_eq : domain? graph source target with
  | none =>
      have root_affected : IsAffected graph source target (graph.rootOf target) := by
        rw [isAffected_of_domain_none domain_eq]
        exact forest.rootOf_of_root (forest.parentOf_rootOf target)
      have sameExits : exitsBelow graph first (graph.rootOf target) =
          exitsBelow graph second (graph.rootOf target) :=
        exitsWithin_congr forest fun other within =>
          agree other (root_affected.of_within forest within)
      simp only [wholeTree, agree _ root_affected, sameExits]
  | some domain =>
      simp only [mk.injEq, and_true]
      refine List.flatMap_congr fun index listed => ?_
      cases place : (graph.regionsOf domain)[index]? with
      | none => simp only [exitsIn, place, Option.bind_none]
      | some region =>
          have child_affected {child : Nat} (member : child ∈ region.children) :
              IsAffected graph source target child := by
            obtain ⟨below, inRegion⟩ := (forest.mem_children_iff place).mp member
            rw [isAffected_of_domain_some domain_eq]
            refine ⟨child, below, ?_, forest.within_refl child⟩
            rw [inRegion]
            exact (mem_affectedRegions_iff forest).mp listed
          have sameChild : first.activeIn? region = second.activeIn? region :=
            List.find?_congr fun child member => agree child (child_affected member)
          simp only [exitsIn, place, Option.bind_some, sameChild]
          cases found : second.activeIn? region with
          | none => rfl
          | some child =>
              have affected := child_affected (List.mem_of_find?_eq_some found)
              exact exitsWithin_congr forest fun other within =>
                agree other (affected.of_within forest within)

/-! ## What a plan writes -/

/-- A plan is about a state if it leaves or enters it. -/
def Concerns (plan : Plan) (state : Nat) : Prop :=
  state ∈ plan.exits ∨ state ∈ plan.entries

/-- In the end exactly those states are active that were entered or were active and not
left. -/
theorem isActive_outcome
    {plan : Plan}
    (inside : ∀ state ∈ plan.entries, state < configuration.flags.size)
    (state : Nat) :
    (plan.outcome configuration).isActive state =
      if state ∈ plan.entries then true
      else if state ∈ plan.exits then false
      else configuration.isActive state := by
  rw [outcome, steps, List.map_nil, List.append_nil, Configuration.after_append,
    Configuration.isActive_after_enters, Configuration.isActive_after_exits]
  simpa only [Configuration.flags_size_after] using inside

/-- A plan changes only the states that it is about. -/
theorem isActive_outcome_of_not_concerns
    {plan : Plan}
    (inside : ∀ state ∈ plan.entries, state < configuration.flags.size)
    {state : Nat}
    (unconcerned : ¬ plan.Concerns state) :
    (plan.outcome configuration).isActive state = configuration.isActive state := by
  rw [Concerns, not_or] at unconcerned
  rw [isActive_outcome inside, if_neg unconcerned.2, if_neg unconcerned.1]

theorem flags_size_outcome (plan : Plan) (configuration : Configuration) :
    (plan.outcome configuration).flags.size = configuration.flags.size :=
  Configuration.flags_size_after _ _

/-- Plans about different states may be carried out in either order. -/
theorem outcome_comm
    {first second : Plan}
    (firstInside : ∀ state ∈ first.entries, state < configuration.flags.size)
    (secondInside : ∀ state ∈ second.entries, state < configuration.flags.size)
    (apart : ∀ state, first.Concerns state → ¬ second.Concerns state) :
    second.outcome (first.outcome configuration) =
      first.outcome (second.outcome configuration) := by
  refine Configuration.eq_of_isActive_eq (by simp only [flags_size_outcome]) fun state => ?_
  have firstLater : ∀ state ∈ first.entries,
      state < (second.outcome configuration).flags.size := by
    simpa only [flags_size_outcome] using firstInside
  have secondLater : ∀ state ∈ second.entries,
      state < (first.outcome configuration).flags.size := by
    simpa only [flags_size_outcome] using secondInside
  by_cases concerned : first.Concerns state
  · have unconcerned := apart state concerned
    rw [isActive_outcome_of_not_concerns secondLater unconcerned,
      isActive_outcome firstInside, isActive_outcome firstLater,
      isActive_outcome_of_not_concerns secondInside unconcerned]
  · rw [isActive_outcome_of_not_concerns firstLater concerned,
      isActive_outcome secondLater, isActive_outcome secondInside,
      isActive_outcome_of_not_concerns firstInside concerned]

/-- The plan of an external transition is about affected states only. -/
theorem isAffected_of_concerns
    (forest : graph.IsForest)
    (consistent : configuration.IsConsistent graph)
    {source target state : Nat}
    (sameTree : graph.rootOf source = graph.rootOf target)
    (concerned : (external graph configuration source target).Concerns state) :
    IsAffected graph source target state := by
  rcases concerned with left | entered
  · exact ((mem_exits_external_iff forest consistent).mp left).2
  · exact ((mem_entries_external_iff forest sameTree).mp entered).1

/-! ## Transitions inside a region -/

section Inside

variable
  {source target composite index : Nat}
  (forest : graph.IsForest)
  (sourceInside : graph.WithinRegion composite index source)
  (targetInside : graph.WithinRegion composite index target)

include forest sourceInside targetInside

/-- The ends of a transition inside a region lie in one tree. -/
theorem sameTree_of_withinRegion : graph.rootOf source = graph.rootOf target := by
  rw [forest.rootOf_of_withinRegion sourceInside, forest.rootOf_of_withinRegion targetInside]

/-- A transition inside a region has a domain at or below the composite state. -/
theorem exists_domain_of_withinRegion :
    ∃ domain, domain? graph source target = some domain ∧ graph.Within source domain ∧
      graph.Within domain composite := by
  obtain ⟨sourceChild, sourceBelow, _, sourceWithin⟩ :=
    forest.withinRegion_iff.mp sourceInside
  obtain ⟨targetChild, targetBelow, _, targetWithin⟩ :=
    forest.withinRegion_iff.mp targetInside
  have sourceStrictly := forest.within_trans sourceWithin (forest.within_parent sourceBelow)
  have targetStrictly := forest.within_trans targetWithin (forest.within_parent targetBelow)
  by_cases within : graph.Within source target
  · have different : target ≠ composite := by
      rintro rfl
      exact forest.not_within_child targetBelow targetWithin
    obtain ⟨parent, below, parentWithin⟩ :=
      forest.exists_parent_of_within targetStrictly different
    refine ⟨parent, ?_, forest.within_trans within (forest.within_parent below), parentWithin⟩
    rw [domain?_of_within within, below]
  · have sameTree := sameTree_of_withinRegion forest sourceInside targetInside
    obtain ⟨domain, hasDomain, sourceDomain, _, deepest⟩ :=
      domain?_of_not_within forest sameTree within
    exact ⟨domain, hasDomain, sourceDomain, deepest composite sourceStrictly targetStrictly⟩

/-- A transition inside a region affects nothing outside it. -/
theorem withinRegion_of_isAffected
    {state : Nat}
    (affected : IsAffected graph source target state) :
    graph.WithinRegion composite index state := by
  obtain ⟨domain, hasDomain, sourceDomain, domainWithin⟩ :=
    exists_domain_of_withinRegion forest sourceInside targetInside
  obtain ⟨branch, branchBelow, ⟨holder, holderBelow, sameRegion, holdsEnd⟩, stateWithin⟩ :=
    (isAffected_of_domain_some hasDomain).mp affected
  have region_of_holder {ending child : Nat} (inside : graph.WithinRegion composite index ending)
      (below : graph.parentOf child = some composite) (within : graph.Within ending child) :
      graph.regionOf child = index :=
    forest.region_eq_of_withinRegion (forest.withinRegion_iff.mpr ⟨child, below, rfl, within⟩)
      inside
  refine forest.withinRegion_iff.mpr ?_
  by_cases equal : domain = composite
  · -- The affected regions of the composite state are the one that holds both ends.
    subst equal
    refine ⟨branch, branchBelow, ?_, stateWithin⟩
    rw [← sameRegion]
    rcases holdsEnd with sourceWithin | targetWithin
    · exact region_of_holder sourceInside holderBelow sourceWithin
    · exact region_of_holder targetInside holderBelow targetWithin
  · -- The domain itself lies in the region, together with all that is below it.
    obtain ⟨child, below, within⟩ := forest.exists_branch domainWithin equal
    refine ⟨child, below, ?_, ?_⟩
    · exact region_of_holder sourceInside below (forest.within_trans sourceDomain within)
    · exact forest.within_trans stateWithin
        (forest.within_trans (forest.within_parent branchBelow) within)

/-- Planned in a consistent configuration, a transition inside a region is about nothing
outside it. -/
theorem withinRegion_of_concerns
    (consistent : configuration.IsConsistent graph)
    {state : Nat}
    (concerned : (external graph configuration source target).Concerns state) :
    graph.WithinRegion composite index state :=
  withinRegion_of_isAffected forest sourceInside targetInside
    (isAffected_of_concerns forest consistent
      (sameTree_of_withinRegion forest sourceInside targetInside) concerned)

/-- Planned in a consistent configuration, a transition inside a region enters states
only. -/
theorem lt_flags_size_of_mem_entries
    (consistent : configuration.IsConsistent graph) :
    ∀ state ∈ (external graph configuration source target).entries,
      state < configuration.flags.size := by
  intro state entered
  rw [consistent.flags_size]
  exact forest.lt_size_of_withinRegion
    (withinRegion_of_concerns forest sourceInside targetInside consistent (.inr entered))

/-- A transition inside a region leaves everything outside it as it was. -/
theorem isActive_outcome_of_not_withinRegion
    (consistent : configuration.IsConsistent graph)
    {state : Nat}
    (outside : ¬ graph.WithinRegion composite index state) :
    ((external graph configuration source target).outcome configuration).isActive state =
      configuration.isActive state :=
  isActive_outcome_of_not_concerns
    (lt_flags_size_of_mem_entries forest sourceInside targetInside consistent)
    fun concerned =>
      outside (withinRegion_of_concerns forest sourceInside targetInside consistent concerned)

end Inside

/-! ## Two transitions -/

/-- The configuration once an external transition has been planned and carried out. -/
def taken (graph : Graph κ) (source target : Nat) (configuration : Configuration) :
    Configuration :=
  (external graph configuration source target).outcome configuration

/-- The plan of a transition inside a region is not changed by a transition inside
another region. -/
theorem external_taken
    (forest : graph.IsForest)
    (consistent : configuration.IsConsistent graph)
    {composite index otherIndex source target otherSource otherTarget : Nat}
    (different : index ≠ otherIndex)
    (sourceInside : graph.WithinRegion composite index source)
    (targetInside : graph.WithinRegion composite index target)
    (otherSourceInside : graph.WithinRegion composite otherIndex otherSource)
    (otherTargetInside : graph.WithinRegion composite otherIndex otherTarget) :
    external graph (taken graph otherSource otherTarget configuration) source target =
      external graph configuration source target := by
  refine external_congr forest fun state affected => ?_
  have inside := withinRegion_of_isAffected forest sourceInside targetInside affected
  refine isActive_outcome_of_not_withinRegion forest otherSourceInside otherTargetInside
    consistent fun otherInside => ?_
  exact different (forest.region_eq_of_withinRegion inside otherInside)

/-- Two external transitions are independent in a configuration: taken in either order
they lead to the same configuration, and each of them leaves and enters the same states
in the same order whether it comes first or second. -/
structure AreIndependent
    (graph : Graph κ)
    (configuration : Configuration)
    (firstSource firstTarget secondSource secondTarget : Nat) : Prop where
  /-- Both orders lead to the same configuration. -/
  taken_comm :
    taken graph secondSource secondTarget
        (taken graph firstSource firstTarget configuration) =
      taken graph firstSource firstTarget
        (taken graph secondSource secondTarget configuration)
  /-- The plan of the first transition is the same in both orders. -/
  first_eq :
    external graph (taken graph secondSource secondTarget configuration)
        firstSource firstTarget =
      external graph configuration firstSource firstTarget
  /-- The plan of the second transition is the same in both orders. -/
  second_eq :
    external graph (taken graph firstSource firstTarget configuration)
        secondSource secondTarget =
      external graph configuration secondSource secondTarget

/-- In a validated graph and a consistent configuration, external transitions whose ends
lie in different regions of a composite state are independent. -/
theorem areIndependent_of_regions_ne
    {η : Type}
    [DecidableEq κ]
    [StateKey κ]
    {blueprint : Blueprint κ η}
    {composite first second firstSource firstTarget secondSource secondTarget : Nat}
    (validated : blueprint.validate = .ok graph)
    (consistent : configuration.IsConsistent graph)
    (different : first ≠ second)
    (firstSourceInside : graph.WithinRegion composite first firstSource)
    (firstTargetInside : graph.WithinRegion composite first firstTarget)
    (secondSourceInside : graph.WithinRegion composite second secondSource)
    (secondTargetInside : graph.WithinRegion composite second secondTarget) :
    AreIndependent graph configuration firstSource firstTarget secondSource
      secondTarget := by
  have forest := blueprint.isForest_of_validate validated
  have first_eq := external_taken forest consistent different firstSourceInside
    firstTargetInside secondSourceInside secondTargetInside
  have second_eq := external_taken forest consistent different.symm secondSourceInside
    secondTargetInside firstSourceInside firstTargetInside
  refine ⟨?_, first_eq, second_eq⟩
  rw [taken, second_eq, taken, taken, first_eq, taken]
  refine outcome_comm
    (lt_flags_size_of_mem_entries forest firstSourceInside firstTargetInside consistent)
    (lt_flags_size_of_mem_entries forest secondSourceInside secondTargetInside consistent)
    fun state inFirst inSecond => different ?_
  exact forest.region_eq_of_withinRegion
    (withinRegion_of_concerns forest firstSourceInside firstTargetInside consistent inFirst)
    (withinRegion_of_concerns forest secondSourceInside secondTargetInside consistent
      inSecond)

/-- The configuration of a chart with two regions in which one region is empty. -/
def greenOnly : Configuration := ⟨#[true, false, true, false, false]⟩

/-- A change of the light and a change of the sound are independent, even while the
sound is neither muted nor loud. -/
theorem areIndependent_light_sound :
    (Blueprint.twoRegions Unit).validate = .ok (Blueprint.twoRegions Unit).graph ∧
      greenOnly.IsConsistent (Blueprint.twoRegions Unit).graph ∧
      0 ≠ 1 ∧
      (Blueprint.twoRegions Unit).graph.WithinRegion 0 0 2 ∧
      (Blueprint.twoRegions Unit).graph.WithinRegion 0 0 1 ∧
      (Blueprint.twoRegions Unit).graph.WithinRegion 0 1 3 ∧
      (Blueprint.twoRegions Unit).graph.WithinRegion 0 1 4 ∧
      taken (Blueprint.twoRegions Unit).graph 3 4
          (taken (Blueprint.twoRegions Unit).graph 2 1 greenOnly) =
        ⟨#[true, true, false, false, true]⟩ ∧
      AreIndependent (Blueprint.twoRegions Unit).graph greenOnly 2 1 3 4 := by
  have validated := Blueprint.validate_twoRegions Unit
  have forest := (Blueprint.twoRegions Unit).isForest_of_validate validated
  have consistent : greenOnly.IsConsistent (Blueprint.twoRegions Unit).graph := by
    have restored : Configuration.ofLeaves (Blueprint.twoRegions Unit).graph [2] =
        .ok greenOnly := by cbv
    exact Configuration.isConsistent_of_ofLeaves forest restored
  have green : (Blueprint.twoRegions Unit).graph.WithinRegion 0 0 2 :=
    forest.withinRegion_iff.mpr ⟨2, by cbv, by cbv, forest.within_refl 2⟩
  have red : (Blueprint.twoRegions Unit).graph.WithinRegion 0 0 1 :=
    forest.withinRegion_iff.mpr ⟨1, by cbv, by cbv, forest.within_refl 1⟩
  have mute : (Blueprint.twoRegions Unit).graph.WithinRegion 0 1 3 :=
    forest.withinRegion_iff.mpr ⟨3, by cbv, by cbv, forest.within_refl 3⟩
  have loud : (Blueprint.twoRegions Unit).graph.WithinRegion 0 1 4 :=
    forest.withinRegion_iff.mpr ⟨4, by cbv, by cbv, forest.within_refl 4⟩
  exact ⟨validated, consistent, by decide, green, red, mute, loud, by cbv,
    areIndependent_of_regions_ne validated consistent (by decide) green red mute loud⟩

end Plan
end Statechart
