import Statechart.Proofs.Graph.Numbering

/-!
# Checked walks

Checked walks look every state up where they read it. They have no result if a state cannot be
found, or if they lead on when their bound is used up. In a forest they always have the result
of the plain walk, whatever the bound is, if it is at least the number of states.
-/

namespace Statechart

variable {κ : Type} {graph : Graph κ}

namespace Graph.IsForest

variable (forest : graph.IsForest)

include forest

/-- Nothing leads down to a root. -/
theorem childToward?_of_root
    {root : Nat}
    (isRoot : graph.parentOf root = none)
    (above : Nat) :
    graph.childToward? above root = none := by
  rw [forest.childToward?_eq_none_iff]
  by_cases equal : root = above
  · exact .inl equal
  · exact .inr fun within => equal (forest.eq_of_within_root isRoot within).symm

/-- The way down to a state ends with that state, or leads to its parent. -/
theorem childToward?_of_parent
    {state next : Nat}
    (below : graph.parentOf state = some next)
    (above : Nat) :
    graph.childToward? above state =
      if next = above then some state else graph.childToward? above next := by
  by_cases equal : next = above
  · rw [if_pos equal, forest.childToward?_eq_some_iff]
    exact ⟨equal ▸ below, forest.within_refl state⟩
  · rw [if_neg equal]
    ext child
    rw [forest.childToward?_eq_some_iff, forest.childToward?_eq_some_iff]
    refine and_congr_right fun isChild => ⟨fun within => ?_, forest.within_of_parent below⟩
    refine forest.parent_within_of_ne within ?_ below
    rintro rfl
    rw [below] at isChild
    exact equal (Option.some.inj isChild)

/-- What holds of a state as soon as it holds of its parent under a smaller bound holds of every
state under a bound that is at least the number of states. -/
@[elab_as_elim]
theorem climb
    {motive : Nat → Nat → Prop}
    (root : ∀ bound state, state < graph.size → graph.parentOf state = none →
      motive (bound + 1) state)
    (child : ∀ bound state next, graph.parentOf state = some next →
      motive bound next → motive (bound + 1) state)
    (bound state : Nat)
    (enough : graph.size ≤ bound)
    (inside : state < graph.size) : motive bound state := by
  replace enough : (graph.chain state).length ≤ bound :=
    (length_chainWithin_le graph graph.size state).trans enough
  induction bound generalizing state with
  | zero => exact absurd enough (Nat.not_le_of_lt (forest.length_chain_pos state))
  | succ bound inductionHypothesis =>
      cases below : graph.parentOf state with
      | none => exact root bound state inside below
      | some next =>
          rw [forest.length_chain_of_parent below] at enough
          exact child bound state next below
            (inductionHypothesis next (forest.parent_lt below) (Nat.le_of_succ_le_succ enough))

/-- What holds of a state as soon as it holds of all its children under a smaller bound holds of
every state under a bound that is at least the number of states. -/
@[elab_as_elim]
theorem descend
    {motive : Nat → Nat → Prop}
    (step : ∀ bound state, state < graph.size →
      (∀ child, graph.parentOf child = some state → motive bound child) →
        motive (bound + 1) state)
    (bound state : Nat)
    (enough : graph.size ≤ bound)
    (inside : state < graph.size) : motive bound state := by
  have positive := forest.length_chain_pos state
  replace enough : graph.size < bound + (graph.chain state).length := by omega
  clear positive
  induction bound generalizing state with
  | zero =>
      rw [Nat.zero_add] at enough
      exact absurd enough (Nat.not_lt_of_le (length_chainWithin_le graph graph.size state))
  | succ bound inductionHypothesis =>
      refine step bound state inside fun child below => ?_
      have length := forest.length_chain_of_parent below
      exact inductionHypothesis child (lt_size_of_parentOf below) (by omega)

end Graph.IsForest

namespace Checked

/-! ## Looking states up -/

/-- The parent of a state that must be there. -/
def parent (graph : Graph κ) (state : Nat) : Option (Option Nat) :=
  graph.nodes[state]?.map Node.parent

/-- The region of a state that must be there. -/
def region (graph : Graph κ) (state : Nat) : Option Nat :=
  graph.nodes[state]?.map Node.region

/-- The regions of a state that must be there. -/
def regions (graph : Graph κ) (state : Nat) : Option (List Region) :=
  graph.nodes[state]?.map Node.regions

section Lookup

variable {state : Nat} (inside : state < graph.size)

include inside

theorem parent_eq : parent graph state = some (graph.parentOf state) := by
  rw [parent, Graph.parentOf, Array.getElem?_eq_getElem inside]
  rfl

theorem region_eq : region graph state = some (graph.regionOf state) := by
  rw [region, Graph.regionOf, Array.getElem?_eq_getElem inside]
  rfl

theorem regions_eq : regions graph state = some (graph.regionsOf state) := by
  rw [regions, Graph.regionsOf, Array.getElem?_eq_getElem inside]
  rfl

end Lookup

/-! ## Walks upwards -/

/-- A state and everything above it. -/
def chain (graph : Graph κ) : Nat → Nat → Option (List Nat)
  | 0, _ => none
  | bound + 1, state => do
      match ← parent graph state with
      | none => return [state]
      | some next => return state :: (← chain graph bound next)

/-- Whether a state equals another one or lies below it. -/
def isWithin (graph : Graph κ) (above : Nat) : Nat → Nat → Option Bool
  | 0, _ => none
  | bound + 1, state =>
      if state = above then some true
      else do
        match ← parent graph state with
        | none => return false
        | some next => isWithin graph above bound next

/-- The root of the tree that holds a state. -/
def rootOf (graph : Graph κ) : Nat → Nat → Option Nat
  | 0, _ => none
  | bound + 1, state => do
      match ← parent graph state with
      | none => return state
      | some next => rootOf graph bound next

/-- The child of `above` on the way down to a state below it. -/
def childToward (graph : Graph κ) (above : Nat) : Nat → Nat → Option (Option Nat)
  | 0, _ => none
  | bound + 1, state => do
      match ← parent graph state with
      | none => return none
      | some next => if next = above then return some state else childToward graph above bound next

/-- The deepest state that two states have in common among themselves and the states above
them. -/
def meet (graph : Graph κ) (bound first second : Nat) : Option (Option Nat) := do
  let others ← chain graph bound second
  return (← chain graph bound first).find? fun candidate => others.contains candidate

section Forest

variable (forest : graph.IsForest)

include forest

section Bounded

variable {bound state : Nat} (enough : graph.size ≤ bound) (inside : state < graph.size)

include enough inside

theorem chain_eq : chain graph bound state = some (graph.chain state) := by
  refine forest.climb ?root ?child bound state enough inside
  case root =>
    intro bound state inside isRoot
    rw [chain, parent_eq inside, isRoot, forest.chain_of_root isRoot]
    rfl
  case child =>
    intro bound state next below inductionHypothesis
    rw [chain, parent_eq (Graph.lt_size_of_parentOf below), below, forest.chain_of_parent below]
    simp [inductionHypothesis]

theorem isWithin_eq (above : Nat) :
    isWithin graph above bound state = some (graph.isWithin state above) := by
  refine forest.climb ?root ?child bound state enough inside
  case root =>
    intro bound state inside isRoot
    rw [isWithin]
    by_cases equal : state = above
    · rw [if_pos equal, equal, Graph.isWithin_iff.mpr (forest.within_refl above)]
    · have outside : graph.isWithin state above = false := by
        rw [← Bool.not_eq_true, Graph.isWithin_iff]
        exact fun within => equal (forest.eq_of_within_root isRoot within).symm
      rw [if_neg equal, parent_eq inside, isRoot, outside]
      rfl
  case child =>
    intro bound state next below inductionHypothesis
    rw [isWithin]
    by_cases equal : state = above
    · rw [if_pos equal, equal, Graph.isWithin_iff.mpr (forest.within_refl above)]
    · have same : graph.isWithin state above = graph.isWithin next above := by
        rw [Bool.eq_iff_iff, Graph.isWithin_iff, Graph.isWithin_iff]
        exact ⟨fun within => forest.parent_within_of_ne within equal below,
          forest.within_of_parent below⟩
      rw [if_neg equal, parent_eq (Graph.lt_size_of_parentOf below), below, same,
        ← inductionHypothesis]
      rfl

theorem rootOf_eq : rootOf graph bound state = some (graph.rootOf state) := by
  refine forest.climb ?root ?child bound state enough inside
  case root =>
    intro bound state inside isRoot
    rw [rootOf, parent_eq inside, isRoot, forest.rootOf_of_root isRoot]
    rfl
  case child =>
    intro bound state next below inductionHypothesis
    rw [rootOf, parent_eq (Graph.lt_size_of_parentOf below), below,
      forest.rootOf_eq_of_within (forest.within_parent below), ← inductionHypothesis]
    rfl

theorem childToward_eq (above : Nat) :
    childToward graph above bound state = some (graph.childToward? above state) := by
  refine forest.climb ?root ?child bound state enough inside
  case root =>
    intro bound state inside isRoot
    rw [childToward, parent_eq inside, isRoot, forest.childToward?_of_root isRoot]
    rfl
  case child =>
    intro bound state next isNext inductionHypothesis
    rw [childToward, parent_eq (Graph.lt_size_of_parentOf isNext), isNext,
      forest.childToward?_of_parent isNext]
    by_cases equal : next = above
    · simp [equal]
    · simp [equal, inductionHypothesis]

omit inside in
theorem meet_eq
    {first second : Nat}
    (firstInside : first < graph.size)
    (secondInside : second < graph.size) :
    meet graph bound first second = some (graph.meet? first second) := by
  rw [meet, chain_eq forest enough firstInside, chain_eq forest enough secondInside]
  rfl

end Bounded
end Forest
end Checked
end Statechart
