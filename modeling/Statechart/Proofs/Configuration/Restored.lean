import Mathlib.Data.Finset.Card
import Statechart.Proofs.Configuration.Consistency

/-!
# Restored configurations

The active leaves determine a consistent configuration: its active states are the leaves
and everything above them. A configuration that can be restored from some leaves is
consistent, and a consistent configuration is restored from its own leaves, also when
some of its regions are empty.
-/

namespace Statechart

variable {κ : Type} {graph : Graph κ} {configuration : Configuration}

/-! ## The depth-first order holds every state -/

namespace Graph

/-- A descent that may reach the bottom meets exactly what lies within its start. -/
theorem IsForest.mem_preorderWithin_iff
    (forest : graph.IsForest)
    {bound state other : Nat}
    (enough : graph.size < bound + (graph.chain state).length) :
    other ∈ graph.preorderWithin bound state ↔ graph.Within other state := by
  induction bound generalizing state with
  | zero =>
      have bounded : (graph.chain state).length ≤ graph.size :=
        length_chainWithin_le graph graph.size state
      omega
  | succ bound inductionHypothesis =>
      rw [preorderWithin, List.mem_cons, List.mem_flatMap]
      have below_iff {child : Nat} (below : graph.parentOf child = some state) :
          other ∈ graph.preorderWithin bound child ↔ graph.Within other child := by
        have length := forest.length_chain_of_parent below
        exact inductionHypothesis (by omega)
      constructor
      · rintro (rfl | ⟨child, listed, met⟩)
        · exact forest.within_refl other
        · have below := forest.mem_childrenOf_iff.mp listed
          exact forest.within_trans ((below_iff below).mp met) (forest.within_parent below)
      · intro within
        by_cases equal : other = state
        · exact .inl equal
        · obtain ⟨branch, below, branchWithin⟩ := forest.exists_branch within equal
          exact .inr ⟨branch, forest.mem_childrenOf_iff.mpr below,
            (below_iff below).mpr branchWithin⟩

/-- The depth-first order holds every state. -/
theorem IsForest.mem_preorder_iff
    (forest : graph.IsForest)
    {state : Nat} :
    state ∈ graph.preorder ↔ state < graph.size := by
  have met_iff (root : Nat) :
      state ∈ graph.preorderWithin graph.size root ↔ graph.Within state root := by
    have positive := List.length_pos_of_mem (forest.within_refl root)
    exact forest.mem_preorderWithin_iff (by omega)
  simp only [preorder, List.mem_flatMap, met_iff]
  constructor
  · rintro ⟨root, listed, within⟩
    exact forest.lt_size_of_within within (forest.mem_roots_iff.mp listed).1
  · exact fun inside =>
      ⟨graph.rootOf state, forest.rootOf_mem_roots inside, forest.within_rootOf state⟩

end Graph

namespace Configuration

/-! ## Leaves -/

/-- A leaf is an active state without an active child. -/
theorem isLeaf_iff
    (forest : graph.IsForest)
    {state : Nat} :
    configuration.isLeaf graph state = true ↔
      configuration.isActive state = true ∧
        ∀ child, graph.parentOf child = some state → configuration.isActive child = false := by
  simp only [isLeaf, Bool.and_eq_true, Bool.not_eq_true', List.any_eq_false,
    forest.mem_childrenOf_iff, Bool.not_eq_true]

/-- The leaves of a consistent configuration. -/
theorem mem_leaves_iff
    (forest : graph.IsForest)
    (flags_size : configuration.flags.size = graph.size)
    {state : Nat} :
    state ∈ configuration.leaves graph ↔ configuration.isLeaf graph state = true := by
  rw [leaves, List.mem_filter, forest.mem_preorder_iff]
  constructor
  · exact And.right
  · intro isLeaf
    refine ⟨?_, isLeaf⟩
    rw [← flags_size]
    exact lt_size_of_isActive ((isLeaf_iff forest).mp isLeaf).1

/-- Below every active state lies a leaf. -/
theorem exists_leaf_within
    (forest : graph.IsForest)
    {state : Nat}
    (active : configuration.isActive state = true) :
    ∃ leaf, configuration.isLeaf graph leaf = true ∧ graph.Within leaf state := by
  induction state using forest.inductionFromBelow with
  | step state inductionHypothesis =>
      by_cases isLeaf : configuration.isLeaf graph state = true
      · exact ⟨state, isLeaf, forest.within_refl state⟩
      · rw [isLeaf_iff forest, not_and] at isLeaf
        obtain ⟨child, childActive⟩ := not_forall.mp (isLeaf active)
        obtain ⟨below, childActive⟩ := Classical.not_imp.mp childActive
        obtain ⟨leaf, leafIsLeaf, within⟩ :=
          inductionHypothesis child below (eq_true_of_ne_false childActive)
        exact ⟨leaf, leafIsLeaf, forest.within_trans within (forest.within_parent below)⟩

/-- Two configurations of the same size with the same active states are the same. -/
theorem eq_of_isActive_eq
    {first second : Configuration}
    (sameSize : first.flags.size = second.flags.size)
    (sameActive : ∀ state, first.isActive state = second.isActive state) :
    first = second := by
  suffices first.flags = second.flags by
    cases first
    cases second
    simpa using this
  refine Array.ext sameSize fun state firstInside secondInside => ?_
  have same := sameActive state
  simpa [isActive, firstInside, secondInside] using same

/-! ## Everything above some states -/

@[simp] theorem flags_size_above (graph : Graph κ) (states : List Nat) :
    (above graph states).flags.size = graph.size := by
  have stays (entered : List Nat) (configuration : Configuration) :
      (entered.foldl activate configuration).flags.size = configuration.flags.size := by
    induction entered generalizing configuration with
    | nil => rfl
    | cons state entered inductionHypothesis =>
        rw [List.foldl_cons, inductionHypothesis]
        simp [activate]
  rw [above, stays]
  simp [empty]

/-- Above some states the active states are those that lie above one of them. -/
theorem isActive_above_iff
    {states : List Nat}
    {state : Nat} :
    (above graph states).isActive state = true ↔
      state < graph.size ∧ ∃ leaf ∈ states, graph.Within leaf state := by
  have active_iff (entered : List Nat) (configuration : Configuration) :
      (entered.foldl activate configuration).isActive state = true ↔
        configuration.isActive state = true ∨
          state ∈ entered ∧ state < configuration.flags.size := by
    induction entered generalizing configuration with
    | nil => simp
    | cons first entered inductionHypothesis =>
        have size_eq : (configuration.activate first).flags.size =
            configuration.flags.size := by simp [activate]
        rw [List.foldl_cons, inductionHypothesis, isActive_activate, size_eq, List.mem_cons]
        by_cases same : first = state
        · subst same
          by_cases inside : first < configuration.flags.size
          · simp [inside]
          · simp [inside]
        · simp [same, Ne.symm same]
  have size_eq : (empty graph.size).flags.size = graph.size := by simp [empty]
  rw [above, active_iff, isActive_empty, size_eq]
  simp [List.mem_flatMap, Graph.Within, and_comm]

/-- Restoring succeeds when no region is doubly filled and the listed states are
leaves. -/
theorem ofLeaves_eq_ok_iff
    {listed : List Nat} :
    ofLeaves graph listed = .ok configuration ↔
      configuration = above graph listed ∧
        (∀ state, state < graph.size → configuration.isConflicted graph state = false) ∧
          ∀ state ∈ listed, state ∈ configuration.leaves graph := by
  simp only [ofLeaves]
  constructor
  · intro restored
    split at restored
    · contradiction
    · rename_i unconflicted
      split at restored
      · contradiction
      · rename_i allLeaves
        cases restored
        refine ⟨rfl, ?_, ?_⟩
        · simpa using unconflicted
        · simpa using allLeaves
  · rintro ⟨rfl, unconflicted, allLeaves⟩
    have noConflict : (List.range graph.size).find?
        ((above graph listed).isConflicted graph) = none := by simpa using unconflicted
    have noOther : (listed.find? fun state =>
        !((above graph listed).leaves graph).contains state) = none := by
      simpa using allLeaves
    rw [noConflict]
    simp only [noOther]

/-- A region is doubly filled when two of its children are active. -/
theorem isConflicted_eq_false_iff
    (forest : graph.IsForest)
    {state : Nat}
    (active : configuration.isActive state = true) :
    configuration.isConflicted graph state = false ↔
      ∀ region ∈ graph.regionsOf state, ∀ first ∈ region.children, ∀ second ∈ region.children,
        configuration.isActive first = true → configuration.isActive second = true →
          first = second := by
  simp only [isConflicted, active, Bool.true_and, List.any_eq_false, decide_eq_true_eq,
    Nat.not_lt]
  refine forall₂_congr fun region member => ?_
  have distinct := (forest.children_nodup member).filter configuration.isActive
  rw [← List.toFinset_card_of_nodup distinct, Finset.card_le_one]
  simp only [List.mem_toFinset, List.mem_filter, and_imp]
  exact forall₂_congr fun first firstListed =>
    ⟨fun unique second secondListed firstActive => unique firstActive second secondListed,
      fun unique firstActive second secondListed => unique second secondListed firstActive⟩

/-- A configuration that has been restored is consistent. -/
theorem isConsistent_of_ofLeaves
    (forest : graph.IsForest)
    {listed : List Nat}
    (restored : ofLeaves graph listed = .ok configuration) :
    configuration.IsConsistent graph := by
  obtain ⟨rfl, unconflicted, _⟩ := ofLeaves_eq_ok_iff.mp restored
  exact {
    flags_size := flags_size_above graph listed
    parent_active := by
      intro state parent active below
      rw [isActive_above_iff] at active ⊢
      obtain ⟨_, leaf, member, within⟩ := active
      exact ⟨forest.parent_lt below, leaf, member,
        forest.within_trans within (forest.within_parent below)⟩
    child_unique := by
      intro state first second region member firstListed secondListed firstActive secondActive
      obtain ⟨index, place⟩ := List.mem_iff_getElem?.mp member
      have stateActive : (above graph listed).isActive state = true := by
        have below := ((forest.mem_children_iff place).mp firstListed).1
        rw [isActive_above_iff] at firstActive ⊢
        obtain ⟨_, leaf, leafMember, within⟩ := firstActive
        exact ⟨forest.parent_lt below, leaf, leafMember,
          forest.within_trans within (forest.within_parent below)⟩
      have inside := Graph.lt_size_of_mem_regionsOf member
      exact (isConflicted_eq_false_iff forest stateActive).mp (unconflicted state inside) region
        member first firstListed second secondListed firstActive secondActive }

/-- The leaves of a consistent configuration determine it. -/
theorem IsConsistent.eq_above
    (consistent : configuration.IsConsistent graph)
    (forest : graph.IsForest)
    {listed : List Nat}
    (same : ∀ state, state ∈ configuration.leaves graph ↔ state ∈ listed) :
    configuration = above graph listed := by
  refine eq_of_isActive_eq (by rw [consistent.flags_size, flags_size_above]) fun state => ?_
  rw [Bool.eq_iff_iff, isActive_above_iff]
  simp only [← same, mem_leaves_iff forest consistent.flags_size]
  constructor
  · exact fun active => ⟨consistent.lt_size active, exists_leaf_within forest active⟩
  · rintro ⟨_, leaf, isLeaf, within⟩
    exact consistent.active_of_within forest ((isLeaf_iff forest).mp isLeaf).1 within

/-- A consistent configuration is restored from its leaves. -/
theorem IsConsistent.ofLeaves_leaves
    (consistent : configuration.IsConsistent graph)
    (forest : graph.IsForest) :
    ofLeaves graph (configuration.leaves graph) = .ok configuration := by
  refine ofLeaves_eq_ok_iff.mpr
    ⟨consistent.eq_above forest fun _ => Iff.rfl, fun state _ => ?_, fun _ member => member⟩
  by_cases active : configuration.isActive state = true
  · rw [isConflicted_eq_false_iff forest active]
    intro region member first firstListed second secondListed
    exact consistent.child_unique member firstListed secondListed
  · simp [isConflicted, active]

end Configuration
end Statechart
