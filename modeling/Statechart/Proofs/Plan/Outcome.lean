import Statechart.Proofs.Plan.External

/-!
# What a plan comes to

Every step of the plan of an external transition is sound. Once all of them have been
completed, the affected part holds exactly the states that were entered, and the rest is
as it was. In every region of an entered state, and in every affected region of the
domain, the chosen child alone is active, so a complete configuration stays complete.
-/

namespace Statechart

variable {κ : Type} {graph : Graph κ} {configuration : Configuration}

namespace Plan

open Statechart.Graph

/-- The steps of a plan, with actions between leaving and entering. -/
def steps (plan : Plan) (actions : List Nat) : List Step :=
  plan.exits.map .exit ++ actions.map .act ++ plan.entries.map .enter

/-- The configuration once a plan has been carried out. -/
def outcome (plan : Plan) (configuration : Configuration) : Configuration :=
  configuration.after (plan.steps [])

/-- Actions have no part in what a plan comes to. -/
theorem after_steps (plan : Plan) (configuration : Configuration) (actions : List Nat) :
    configuration.after (plan.steps actions) = plan.outcome configuration := by
  unfold outcome steps
  rw [Configuration.after_append, Configuration.after_append, Configuration.after_append,
    Configuration.after_append, Configuration.after_acts, Configuration.after_acts]

section External

variable
  {source target : Nat}
  (forest : graph.IsForest)
  (consistent : configuration.IsConsistent graph)
  (active : configuration.isActive source = true)
  (sameTree : graph.rootOf source = graph.rootOf target)

include forest consistent active sameTree

/-- The target of a transition from an active state is a state. -/
theorem target_lt_size : target < graph.size := by
  refine forest.lt_size_of_within (forest.within_rootOf target) ?_
  rw [← sameTree]
  exact forest.above_lt_size (forest.within_rootOf source) (consistent.lt_size active)

/-- The domain of a transition from an active state is active. -/
theorem domain_active
    {domain : Nat}
    (hasDomain : domain? graph source target = some domain) :
    configuration.isActive domain = true := by
  rcases domain?_cases forest sameTree with
    ⟨noDomain, _, _⟩ | ⟨other, _, otherDomain, _, _, within⟩
  · rw [noDomain] at hasDomain
    contradiction
  · rw [hasDomain] at otherDomain
    cases otherDomain
    exact consistent.active_of_within forest active within

/-- Affected states are states. -/
theorem lt_size_of_isAffected
    {state : Nat}
    (affected : IsAffected graph source target state) :
    state < graph.size := by
  rcases domain?_cases forest sameTree with
    ⟨noDomain, _, _⟩ | ⟨domain, _, hasDomain, _, _, _⟩
  · rw [isAffected_of_domain_none noDomain] at affected
    have inside := target_lt_size forest consistent active sameTree
    refine forest.lt_size_of_within (forest.within_rootOf state) ?_
    rw [affected]
    exact forest.above_lt_size (forest.within_rootOf target) inside
  · obtain ⟨branch, below, _, within⟩ := (isAffected_of_domain_some hasDomain).mp affected
    exact forest.lt_size_of_within within (lt_size_of_parentOf below)

omit active sameTree in
/-- Once the planned states have been left, exactly the active states that are not
affected are still active. -/
theorem isActive_after_exits_external_iff
    (source target state : Nat) :
    (configuration.after
        ((external graph configuration source target).exits.map .exit)).isActive state = true ↔
      configuration.isActive state = true ∧ ¬ IsAffected graph source target state := by
  rw [Configuration.isActive_after_exits]
  by_cases left : state ∈ (external graph configuration source target).exits
  · rw [if_pos left]
    have affected := ((mem_exits_external_iff forest consistent).mp left).2
    simp [affected]
  · rw [if_neg left]
    rw [mem_exits_external_iff forest consistent, not_and] at left
    constructor
    · exact fun stillActive => ⟨stillActive, left stillActive⟩
    · exact And.left

/-- Every step of the plan is sound. -/
theorem soundSteps_external (actions : List Nat) :
    SoundSteps graph configuration
      ((external graph configuration source target).steps actions) := by
  have leftBefore := pairwise_exits_external forest consistent source target
  have notWithin : (external graph configuration source target).entries.Pairwise
      fun earlier later => ¬ graph.Within earlier later :=
    pairwise_entries_external forest sameTree
  have stillActive_iff := isActive_after_exits_external_iff forest consistent source target
  have vacated {state : Nat} (affected : IsAffected graph source target state) :
      (configuration.after ((external graph configuration source target).exits.map
        .exit)).isActive state = false := by
    rw [Bool.eq_false_iff]
    exact fun stillActive => ((stillActive_iff state).mp stillActive).2 affected
  rw [steps, List.append_assoc]
  refine SoundSteps.append ?_ (SoundSteps.append (SoundSteps.acts _ _ _) ?_)
  · refine SoundSteps.exits forest ?_ ?_ ?_ ?_
    · refine leftBefore.imp fun before equal => ?_
      subst equal
      exact before.not_within (forest.within_refl _)
    · exact fun state member => ((mem_exits_external_iff forest consistent).mp member).1
    · intro state member child below childActive
      rw [mem_exits_external_iff forest consistent] at member ⊢
      exact ⟨childActive, member.2.of_within forest (forest.within_parent below)⟩
    · exact leftBefore.imp fun before below =>
        before.not_within (forest.within_parent below)
  · rw [Configuration.after_acts]
    refine SoundSteps.enters ?_ ?_ ?_ ?_ ?_ ?_ ?_ forest
    · refine notWithin.imp fun apart equal => ?_
      subst equal
      exact apart (forest.within_refl _)
    · intro state member
      have affected := ((mem_entries_external_iff forest sameTree).mp member).1
      have inside := lt_size_of_isAffected forest consistent active sameTree affected
      rw [Configuration.flags_size_after, consistent.flags_size]
      exact ⟨inside, inside⟩
    · exact fun state member =>
        vacated ((mem_entries_external_iff forest sameTree).mp member).1
    · intro state member parent below
      obtain ⟨affected, chosen⟩ := (mem_entries_external_iff forest sameTree).mp member
      rcases affected.parent_or_domain forest below with parentAffected | hasDomain
      · left
        exact (mem_entries_external_iff forest sameTree).mpr ⟨parentAffected,
          fun above upper => chosen above (forest.within_of_parent below upper)⟩
      · right
        exact (stillActive_iff parent).mpr
          ⟨domain_active forest consistent active sameTree hasDomain,
            not_isAffected_of_domain_within forest hasDomain (forest.within_refl parent)⟩
    · exact notWithin.imp fun apart below => apart (forest.within_parent below)
    · intro state member sibling parent below siblingBelow sameRegion
      have affected := ((mem_entries_external_iff forest sameTree).mp member).1
      exact vacated (affected.sibling forest below siblingBelow sameRegion)
    · intro first firstMember second secondMember parent firstBelow secondBelow sameRegion
      obtain ⟨firstAffected, firstChosen⟩ :=
        (mem_entries_external_iff forest sameTree).mp firstMember
      obtain ⟨secondAffected, secondChosen⟩ :=
        (mem_entries_external_iff forest sameTree).mp secondMember
      exact (firstChosen first (forest.within_refl first) firstAffected).eq_of_sameRegion
        (secondChosen second (forest.within_refl second) secondAffected)
        firstBelow secondBelow sameRegion

/-- In the end the active states are those that were entered and the active states that
were not affected. -/
theorem isActive_outcome_iff (state : Nat) :
    ((external graph configuration source target).outcome configuration).isActive state =
        true ↔
      state ∈ (external graph configuration source target).entries ∨
        (configuration.isActive state = true ∧ ¬ IsAffected graph source target state) := by
  have inside : ∀ state ∈ (external graph configuration source target).entries,
      state < (configuration.after ((external graph configuration source target).exits.map
        .exit)).flags.size := by
    intro state member
    rw [Configuration.flags_size_after, consistent.flags_size]
    exact lt_size_of_isAffected forest consistent active sameTree
      ((mem_entries_external_iff forest sameTree).mp member).1
  rw [outcome, steps, List.map_nil, List.append_nil, Configuration.after_append,
    Configuration.isActive_after_enters inside,
    ← isActive_after_exits_external_iff forest consistent]
  by_cases member : state ∈ (external graph configuration source target).entries
  · simp [member]
  · simp [member]

/-- In the affected part exactly the entered states are active. -/
theorem isActive_outcome_of_isAffected
    {state : Nat}
    (affected : IsAffected graph source target state) :
    ((external graph configuration source target).outcome configuration).isActive state =
        true ↔ state ∈ (external graph configuration source target).entries := by
  rw [isActive_outcome_iff forest consistent active sameTree]
  simp [affected]

/-- Outside the affected part everything is as it was. -/
theorem isActive_outcome_of_not_isAffected
    {state : Nat}
    (unaffected : ¬ IsAffected graph source target state) :
    ((external graph configuration source target).outcome configuration).isActive state =
      configuration.isActive state := by
  rw [Bool.eq_iff_iff, isActive_outcome_iff forest consistent active sameTree,
    mem_entries_external_iff forest sameTree]
  simp [unaffected]

omit consistent active in
/-- Everything affected on the way to the target is entered. -/
theorem mem_entries_of_target_within
    {state : Nat}
    (within : graph.Within target state)
    (affected : IsAffected graph source target state) :
    state ∈ (external graph configuration source target).entries :=
  (mem_entries_external_iff forest sameTree).mpr ⟨affected, fun _ upper _ =>
    isChosen_of_within forest (forest.within_trans within upper)⟩

/-- In a region of an entered state, and in an affected region of the domain, the chosen
child alone is active. -/
theorem isActive_outcome_child_iff
    {parent child : Nat}
    (below : graph.parentOf child = some parent)
    (refilled : parent ∈ (external graph configuration source target).entries ∨
      domain? graph source target = some parent ∧
        HoldsEnd graph source target parent (graph.regionOf child)) :
    ((external graph configuration source target).outcome configuration).isActive child =
        true ↔
      graph.chosenIn? target parent (graph.regionOf child) = some child := by
  have childAffected : IsAffected graph source target child := by
    rcases refilled with entered | ⟨hasDomain, holdsEnd⟩
    · exact ((mem_entries_external_iff forest sameTree).mp entered).1.of_within forest
        (forest.within_parent below)
    · exact (isAffected_of_domain_some hasDomain).mpr
        ⟨child, below, holdsEnd, forest.within_refl child⟩
  rw [isActive_outcome_of_isAffected forest consistent active sameTree childAffected,
    mem_entries_external_iff forest sameTree]
  constructor
  · rintro ⟨_, chosen⟩
    exact chosen child (forest.within_refl child) childAffected parent below
  · intro found
    refine ⟨childAffected, fun above upper aboveAffected => ?_⟩
    rcases forest.within_iff.mp upper with rfl | ⟨other, otherBelow, upper⟩
    · intro other otherBelow
      rw [below] at otherBelow
      cases otherBelow
      exact found
    · rw [below] at otherBelow
      cases otherBelow
      rcases refilled with entered | ⟨hasDomain, _⟩
      · exact ((mem_entries_external_iff forest sameTree).mp entered).2 above upper
          aboveAffected
      · exact absurd aboveAffected
          (not_isAffected_of_domain_within forest hasDomain upper)

/-- A complete configuration stays complete. -/
theorem isComplete_outcome
    (complete : configuration.IsComplete graph) :
    ((external graph configuration source target).outcome configuration).IsComplete graph
    where
  root_active := by
    intro root listed
    obtain ⟨_, isRoot⟩ := forest.mem_roots_iff.mp listed
    by_cases affected : IsAffected graph source target root
    · rw [isActive_outcome_of_isAffected forest consistent active sameTree affected]
      refine mem_entries_of_target_within forest sameTree ?_ affected
      rcases domain?_cases forest sameTree with
        ⟨noDomain, _, _⟩ | ⟨domain, _, hasDomain, _, _, _⟩
      · rw [isAffected_of_domain_none noDomain, forest.rootOf_of_root isRoot] at affected
        rw [affected]
        exact forest.within_rootOf target
      · obtain ⟨branch, below, _, within⟩ :=
          (isAffected_of_domain_some hasDomain).mp affected
        rw [forest.eq_of_within_root isRoot within, isRoot] at below
        contradiction
    · rw [isActive_outcome_of_not_isAffected forest consistent active sameTree affected]
      exact complete.root_active listed
  region_filled := by
    intro state region stateActive member
    obtain ⟨index, place⟩ := List.mem_iff_getElem?.mp member
    have inRange : index < (graph.regionsOf state).length :=
      (List.getElem?_eq_some_iff.mp place).1
    by_cases refilled : state ∈ (external graph configuration source target).entries ∨
        domain? graph source target = some state ∧ HoldsEnd graph source target state index
    · obtain ⟨chosen, found⟩ := exists_chosenIn inRange target
      obtain ⟨chosenBelow, chosenRegion⟩ := chosenIn?_below forest found
      have active_iff {child : Nat}
          (below : graph.parentOf child = some state)
          (inRegion : graph.regionOf child = index) :=
        isActive_outcome_child_iff forest consistent active sameTree below
          (by rw [inRegion]; exact refilled)
      refine ⟨chosen, ⟨(forest.mem_children_iff place).mpr ⟨chosenBelow, chosenRegion⟩, ?_⟩,
        ?_⟩
      · rw [active_iff chosenBelow chosenRegion, chosenRegion]
        exact found
      · rintro other ⟨listed, otherActive⟩
        obtain ⟨otherBelow, otherRegion⟩ := (forest.mem_children_iff place).mp listed
        rw [active_iff otherBelow otherRegion, otherRegion, found] at otherActive
        exact (Option.some.inj otherActive).symm
    · rw [not_or, not_and] at refilled
      obtain ⟨stateActive, unaffected⟩ :=
        ((isActive_outcome_iff forest consistent active sameTree state).mp
          stateActive).resolve_left refilled.1
      -- Neither the state nor any child in this region is affected.
      have unchanged : ∀ child ∈ region.children,
          ((external graph configuration source target).outcome configuration).isActive
            child = configuration.isActive child := by
        intro child listed
        obtain ⟨below, inRegion⟩ := (forest.mem_children_iff place).mp listed
        refine isActive_outcome_of_not_isAffected forest consistent active sameTree ?_
        intro affected
        rcases affected.parent_or_domain forest below with stateAffected | hasDomain
        · exact unaffected stateAffected
        · obtain ⟨branch, branchBelow, holdsEnd, within⟩ :=
            (isAffected_of_domain_some hasDomain).mp affected
          have same := forest.eq_of_common_within below branchBelow
            (forest.within_refl child) within
          rw [← same, inRegion] at holdsEnd
          exact refilled.2 hasDomain holdsEnd
      obtain ⟨child, ⟨listed, childActive⟩, unique⟩ :=
        complete.region_filled stateActive member
      refine ⟨child, ⟨listed, by rw [unchanged child listed]; exact childActive⟩, ?_⟩
      rintro other ⟨otherListed, otherActive⟩
      rw [unchanged other otherListed] at otherActive
      exact unique other ⟨otherListed, otherActive⟩

end External

end Plan
end Statechart
