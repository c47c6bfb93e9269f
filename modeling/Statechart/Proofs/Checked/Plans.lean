import Statechart.Proofs.Checked.Walks
import Statechart.Proofs.Plan.Defaults

/-!
# Checked plans

Checked plans read states, regions and flags where they are needed. They fail if one of them is
missing, or if a walk leads on when its bound is used up. In a forest, with a flag for every
state and a bound of at least the number of states, they always have the result of the plain
plans.
-/

namespace Statechart
namespace Checked

variable {κ : Type} {graph : Graph κ} {configuration : Configuration}

/-! ## Lists -/

section Lists

variable {α β : Type} {list : List α}

theorem mapM_eq_map
    {visit : α → Option β}
    {value : α → β}
    (visited : ∀ member ∈ list, visit member = some (value member)) :
    list.mapM visit = some (list.map value) := by
  induction list with
  | nil => rfl
  | cons first rest inductionHypothesis =>
      obtain ⟨firstVisited, restVisited⟩ := List.forall_mem_cons.mp visited
      rw [List.mapM_cons, firstVisited, inductionHypothesis restVisited]
      rfl

variable {test : α → Option Bool} {holds : α → Bool}

theorem findM?_eq_find? (tested : ∀ member ∈ list, test member = some (holds member)) :
    list.findM? test = some (list.find? holds) := by
  induction list with
  | nil => rfl
  | cons first rest inductionHypothesis =>
      obtain ⟨firstTested, restTested⟩ := List.forall_mem_cons.mp tested
      rw [List.findM?, firstTested, List.find?_cons]
      cases holds first with
      | true => rfl
      | false => exact inductionHypothesis restTested

theorem anyM_eq_any (tested : ∀ member ∈ list, test member = some (holds member)) :
    list.anyM test = some (list.any holds) := by
  induction list with
  | nil => rfl
  | cons first rest inductionHypothesis =>
      obtain ⟨firstTested, restTested⟩ := List.forall_mem_cons.mp tested
      rw [List.anyM_cons, firstTested, List.any_cons, inductionHypothesis restTested]
      cases holds first with
      | true => rfl
      | false => rfl

theorem filterAuxM_eq (tested : ∀ member ∈ list, test member = some (holds member))
    (kept : List α) :
    list.filterAuxM test kept = some ((list.filter holds).reverse ++ kept) := by
  induction list generalizing kept with
  | nil => rfl
  | cons first rest inductionHypothesis =>
      obtain ⟨firstTested, restTested⟩ := List.forall_mem_cons.mp tested
      rw [List.filterAuxM, firstTested, List.filter_cons]
      cases holds first with
      | true => simpa using inductionHypothesis restTested (first :: kept)
      | false => simpa using inductionHypothesis restTested kept

theorem filterM_eq_filter (tested : ∀ member ∈ list, test member = some (holds member)) :
    list.filterM test = some (list.filter holds) := by
  rw [List.filterM, filterAuxM_eq tested]
  simp

omit α in
/-- Numbers below a bound, sorted and without repetitions. -/
theorem dedup_mergeSort_eq
    {numbers : List Nat}
    {bound : Nat}
    (inside : ∀ number ∈ numbers, number < bound) :
    numbers.mergeSort.dedup = (List.range bound).filter numbers.contains := by
  have sorted : numbers.mergeSort.dedup.Pairwise (· ≤ ·) := by
    refine (List.pairwise_mergeSort ?_ ?_ numbers).imp of_decide_eq_true |>.sublist
      (List.dedup_sublist _)
    · exact fun _ _ _ => by simpa using Nat.le_trans
    · exact fun _ _ => by simpa using Nat.le_total _ _
  have same : numbers.mergeSort.dedup.Perm ((List.range bound).filter numbers.contains) := by
    refine (List.perm_ext_iff_of_nodup (List.nodup_dedup _)
      (List.nodup_range.filter _)).mpr fun number => ?_
    rw [List.mem_dedup, List.mem_mergeSort, List.mem_filter, List.contains_iff_mem,
      List.mem_range]
    exact ⟨fun member => ⟨inside number member, member⟩, And.right⟩
  exact same.eq_of_pairwise (fun _ _ _ _ => Nat.le_antisymm) sorted
    ((List.pairwise_le_range).filter _)

/-- Visiting only some members. -/
theorem flatten_map_ite (holds : α → Bool) (visit : α → List β) (list : List α) :
    (list.map fun member => if holds member then visit member else []).flatten =
      (list.filter holds).flatMap visit := by
  induction list with
  | nil => rfl
  | cons first rest inductionHypothesis =>
      rw [List.map_cons, List.flatten_cons, inductionHypothesis, List.filter_cons]
      split
      · rfl
      · rfl

end Lists

/-! ## Looking flags and regions up -/

/-- Whether a state that must have a flag is active. -/
def isActive (configuration : Configuration) (state : Nat) : Option Bool :=
  configuration.flags[state]?

/-- The active child in a region that must be there. -/
def activeChild
    (graph : Graph κ)
    (configuration : Configuration)
    (state index : Nat) : Option (Option Nat) := do
  let region ← (← regions graph state)[index]?
  region.children.findM? (isActive configuration)

/-- Whether a state is active while none of its children is. -/
def isLeaf
    (graph : Graph κ)
    (configuration : Configuration)
    (state : Nat) : Option Bool := do
  if ← isActive configuration state then
    let children := (← regions graph state).flatMap Region.children
    return !(← children.anyM (isActive configuration))
  else return false

/-- A state that must be there, with its depth-first number. -/
def numbered (graph : Graph κ) (state : Nat) : Option (Nat × Nat) :=
  graph.nodes[state]?.map fun _ => (graph.orderOf state, state)

/-- The active leaves, sorted by their depth-first numbers. -/
def leaves (graph : Graph κ) (configuration : Configuration) : Option (List Nat) := do
  let listed ← (List.range configuration.flags.size).filterM (isLeaf graph configuration)
  let places ← listed.mapM (numbered graph)
  return (places.mergeSort fun first second => first.1 ≤ second.1).map Prod.snd

/-! ## Plans -/

/-- The active part below a state and the state itself, children before parents. -/
def exitsBelow (graph : Graph κ) (configuration : Configuration) : Nat → Nat → Option (List Nat)
  | 0, _ => none
  | bound + 1, state => do
      let held ← regions graph state
      let parts ← (List.range held.length).mapM fun index => do
        match ← activeChild graph configuration state index with
        | none => return []
        | some child => exitsBelow graph configuration bound child
      return parts.flatten ++ [state]

/-- The states entered with a state: along a path in the regions that the path leads into, and
through initial children everywhere else. -/
def entriesAlong (graph : Graph κ) : Nat → Nat → List Nat → Option (List Nat)
  | 0, _, _ => none
  | bound + 1, state, path => do
      let held ← regions graph state
      let parts ← (List.range held.length).mapM fun index => do
        match path with
        | [] => entriesAlong graph bound (← held[index]?).initial []
        | next :: rest =>
            if (← region graph next) = index then entriesAlong graph bound next rest
            else entriesAlong graph bound (← held[index]?).initial []
      return state :: parts.flatten

/-- The state whose subtree a transition leaves and enters again. -/
def domain (graph : Graph κ) (bound source target : Nat) : Option (Option Nat) := do
  if ← isWithin graph target bound source then parent graph target
  else meet graph bound source target

/-- The states strictly below another one on the way down to a target. -/
def pathBelow
    (graph : Graph κ)
    (bound : Nat)
    (above : Option Nat)
    (target : Nat) : Option (List Nat) := do
  let way ← chain graph bound target
  return (way.takeWhile fun state => some state != above).reverse

/-- The regions of the domain that hold an end of a transition, in order and each of them
once. -/
def affectedRegions
    (graph : Graph κ)
    (bound domain source target : Nat) : Option (List Nat) := do
  let branches ← [source, target].mapM (childToward graph domain bound)
  let touched ← (branches.filterMap id).mapM (region graph)
  return touched.mergeSort.dedup

/-- The states left in one region of the domain. -/
def exitsIn
    (graph : Graph κ)
    (configuration : Configuration)
    (bound domain index : Nat) : Option (List Nat) := do
  match ← activeChild graph configuration domain index with
  | none => return []
  | some child => exitsBelow graph configuration bound child

/-- The states entered in one of some regions, along the path where it leads into that
region. -/
def entriesIn
    (graph : Graph κ)
    (bound : Nat)
    (held : List Region)
    (path : List Nat)
    (index : Nat) : Option (List Nat) := do
  match path with
  | [] => entriesAlong graph bound (← held[index]?).initial []
  | next :: rest =>
      if (← region graph next) = index then entriesAlong graph bound next rest
      else entriesAlong graph bound (← held[index]?).initial []

/-- The states left in a tree. -/
def exitsFrom
    (graph : Graph κ)
    (configuration : Configuration)
    (bound root : Nat) : Option (List Nat) :=
  if configuration.isActive root then exitsBelow graph configuration bound root else return []

/-- The plan of a transition that leaves and enters a whole tree, along a path that must have a
first state. -/
def wholeTree
    (graph : Graph κ)
    (configuration : Configuration)
    (bound target : Nat) : Option Plan := do
  let root ← rootOf graph bound target
  let exits ← exitsFrom graph configuration bound root
  let path ← pathBelow graph bound none target
  let first ← path[0]?
  return ⟨exits, ← entriesAlong graph bound first path.tail⟩

/-- The plan of an external transition from a source to a target. -/
def external
    (graph : Graph κ)
    (configuration : Configuration)
    (bound source target : Nat) : Option Plan := do
  match ← domain graph bound source target with
  | none => wholeTree graph configuration bound target
  | some domain =>
      let affected ← affectedRegions graph bound domain source target
      let exits ← affected.mapM (exitsIn graph configuration bound domain)
      let path ← pathBelow graph bound (some domain) target
      let entries ← affected.mapM (entriesIn graph bound (← regions graph domain) path)
      return ⟨exits.flatten, entries.flatten⟩

/-- The states entered at the start. -/
def initial (graph : Graph κ) (bound : Nat) : Option (List Nat) := do
  let parts ← graph.roots.mapM fun root => entriesAlong graph bound root []
  return parts.flatten

/-- The states left at the end. -/
def shutdown
    (graph : Graph κ)
    (configuration : Configuration)
    (bound : Nat) : Option (List Nat) := do
  let parts ← graph.roots.mapM (exitsFrom graph configuration bound)
  return parts.flatten

/-! ## The results -/

section Forest

variable (forest : graph.IsForest)

include forest

section Configuration

variable (flagged : configuration.flags.size = graph.size)

include flagged

omit forest in
theorem isActive_eq
    {state : Nat}
    (inside : state < graph.size) :
    isActive configuration state = some (configuration.isActive state) := by
  rw [isActive, Configuration.isActive, Array.getElem?_eq_getElem (flagged ▸ inside)]
  rfl

theorem activeChild_eq
    {state index : Nat}
    (inRange : index < (graph.regionsOf state).length) :
    activeChild graph configuration state index =
      some ((graph.regionsOf state)[index]?.bind configuration.activeIn?) := by
  have found := List.getElem?_eq_getElem inRange
  have inside := Graph.lt_size_of_mem_regionsOf (List.getElem_mem inRange)
  have tested : ∀ child ∈ (graph.regionsOf state)[index].children,
      isActive configuration child = some (configuration.isActive child) := by
    intro child listed
    have below := ((forest.mem_children_iff found).mp listed).1
    exact isActive_eq flagged (Graph.lt_size_of_parentOf below)
  rw [activeChild, regions_eq inside]
  simp only [Option.bind_eq_bind, Option.bind_some, found]
  exact findM?_eq_find? tested

theorem isLeaf_eq
    {state : Nat}
    (inside : state < graph.size) :
    isLeaf graph configuration state = some (configuration.isLeaf graph state) := by
  have tested : ∀ child ∈ graph.childrenOf state,
      isActive configuration child = some (configuration.isActive child) := fun child listed =>
    isActive_eq flagged (Graph.lt_size_of_parentOf (forest.mem_childrenOf_iff.mp listed))
  rw [isLeaf, isActive_eq flagged inside, Configuration.isLeaf]
  cases configuration.isActive state with
  | false => rfl
  | true =>
      have searched := anyM_eq_any tested
      rw [Graph.childrenOf] at searched
      simp [regions_eq inside, searched, Graph.childrenOf]

theorem leaves_eq : leaves graph configuration = some (configuration.leaves graph) := by
  have listed : (List.range configuration.flags.size).filterM (isLeaf graph configuration) =
      some ((List.range graph.size).filter (configuration.isLeaf graph)) := by
    rw [flagged]
    exact filterM_eq_filter fun state member =>
      isLeaf_eq forest flagged (List.mem_range.mp member)
  have placed : ((List.range graph.size).filter (configuration.isLeaf graph)).mapM
        (numbered graph) =
      some (((List.range graph.size).filter (configuration.isLeaf graph)).map fun state =>
        (graph.orderOf state, state)) := by
    refine mapM_eq_map fun state member => ?_
    have inside := List.mem_range.mp (List.mem_filter.mp member).1
    rw [numbered, Array.getElem?_eq_getElem inside, Option.map_some]
  rw [leaves, listed, Configuration.leaves_eq_mergeSort forest]
  simp only [Option.bind_eq_bind, Option.bind_some, placed]
  rw [← List.map_mergeSort (f := fun state => (graph.orderOf state, state))
    fun _ _ _ _ => rfl, List.map_map]
  simp [Function.comp_def]

/-! ### Leaving -/

omit forest flagged in
theorem exitsBelow_succ (bound state : Nat) :
    exitsBelow graph configuration (bound + 1) state = do
      let held ← regions graph state
      let parts ← (List.range held.length).mapM (exitsIn graph configuration bound state)
      return parts.flatten ++ [state] := rfl

/-- Leaving a region ends and finds everything if this holds of the child in the region. -/
theorem exitsIn_eq_of_children
    {bound state index : Nat}
    (inRange : index < (graph.regionsOf state).length)
    (children : ∀ child, graph.parentOf child = some state →
      exitsBelow graph configuration bound child =
        some (Plan.exitsBelow graph configuration child)) :
    exitsIn graph configuration bound state index =
      some (Plan.exitsIn graph configuration state index) := by
  rw [exitsIn, activeChild_eq forest flagged inRange, Plan.exitsIn]
  cases found : (graph.regionsOf state)[index]?.bind configuration.activeIn? with
  | none => rfl
  | some child =>
      obtain ⟨region, place, isActive⟩ := Option.bind_eq_some_iff.mp found
      have below := ((forest.mem_children_iff place).mp (List.mem_of_find?_eq_some isActive)).1
      exact children child below

section Bounded

variable {bound : Nat} (enough : graph.size ≤ bound)

include enough

/-- Leaving the active part below a state ends and finds everything. -/
theorem exitsBelow_eq
    {state : Nat}
    (inside : state < graph.size) :
    exitsBelow graph configuration bound state =
      some (Plan.exitsBelow graph configuration state) := by
  refine forest.descend ?step bound state enough inside
  case step =>
    intro bound state inside inductionHypothesis
    have parts : (List.range (graph.regionsOf state).length).mapM
          (exitsIn graph configuration bound state) =
        some ((List.range (graph.regionsOf state).length).map
          (Plan.exitsIn graph configuration state)) :=
      mapM_eq_map fun index member =>
        exitsIn_eq_of_children forest flagged (List.mem_range.mp member) inductionHypothesis
    rw [exitsBelow_succ, regions_eq inside, Plan.exitsBelow_eq forest]
    simp only [Option.bind_eq_bind, Option.bind_some, parts]
    rfl

theorem exitsIn_eq
    {state index : Nat}
    (inRange : index < (graph.regionsOf state).length) :
    exitsIn graph configuration bound state index =
      some (Plan.exitsIn graph configuration state index) :=
  exitsIn_eq_of_children forest flagged inRange fun _ below =>
    exitsBelow_eq forest flagged enough (Graph.lt_size_of_parentOf below)

/-- Leaving a tree ends and finds everything. -/
theorem exitsFrom_eq
    {root : Nat}
    (inside : root < graph.size) :
    exitsFrom graph configuration bound root =
      some (if configuration.isActive root then Plan.exitsBelow graph configuration root
        else []) := by
  rw [exitsFrom]
  split
  · exact exitsBelow_eq forest flagged enough inside
  · rfl

/-- Leaving all trees ends and finds everything. -/
theorem shutdown_eq :
    shutdown graph configuration bound = some (Plan.shutdown graph configuration) := by
  have parts := mapM_eq_map fun root listed =>
    exitsFrom_eq forest flagged enough (forest.mem_roots_iff.mp listed).1
  rw [shutdown, parts, Plan.shutdown, ← flatten_map_ite]
  rfl

end Bounded
end Configuration

/-! ### Entering -/

omit forest in
theorem entriesAlong_succ (bound state : Nat) (path : List Nat) :
    entriesAlong graph (bound + 1) state path = do
      let held ← regions graph state
      let parts ← (List.range held.length).mapM (entriesIn graph bound held path)
      return state :: parts.flatten := rfl

/-- Entering a region ends and finds everything if this holds of the children. -/
theorem entriesIn_eq_of_children
    {bound state index : Nat}
    {path : List Nat}
    (inRange : index < (graph.regionsOf state).length)
    (leads : Plan.LeadsDown graph state path)
    (children : ∀ child, graph.parentOf child = some state → ∀ way,
      Plan.LeadsDown graph child way →
        entriesAlong graph bound child way = some (Plan.entriesAlong graph child way)) :
    entriesIn graph bound (graph.regionsOf state) path index =
      some (Plan.entriesIn graph state index path) := by
  have found := List.getElem?_eq_getElem inRange
  have byDefault := children _ (forest.initial_below found).1 [] trivial
  cases path with
  | nil =>
      rw [entriesIn, Plan.entriesIn, found]
      exact byDefault
  | cons next rest =>
      obtain ⟨below, restLeads⟩ := leads
      rw [entriesIn, Plan.entriesIn, found, region_eq (Graph.lt_size_of_parentOf below)]
      by_cases inRegion : graph.regionOf next = index
      · simpa [inRegion] using children next below rest restLeads
      · simpa [inRegion] using byDefault

section Bounded

variable {bound : Nat} (enough : graph.size ≤ bound)

include enough

/-- Entering a state along a path below it ends and finds everything. -/
theorem entriesAlong_eq
    {state : Nat}
    {path : List Nat}
    (inside : state < graph.size)
    (leads : Plan.LeadsDown graph state path) :
    entriesAlong graph bound state path = some (Plan.entriesAlong graph state path) := by
  suffices anyPath : ∀ path, Plan.LeadsDown graph state path →
      entriesAlong graph bound state path = some (Plan.entriesAlong graph state path) from
    anyPath path leads
  refine forest.descend ?step bound state enough inside
  case step =>
    intro bound state inside inductionHypothesis path leads
    have parts : (List.range (graph.regionsOf state).length).mapM
          (entriesIn graph bound (graph.regionsOf state) path) =
        some ((List.range (graph.regionsOf state).length).map fun index =>
          Plan.entriesIn graph state index path) :=
      mapM_eq_map fun index member =>
        entriesIn_eq_of_children forest (List.mem_range.mp member) leads inductionHypothesis
    rw [entriesAlong_succ, regions_eq inside, Plan.entriesAlong_eq forest leads]
    simp only [Option.bind_eq_bind, Option.bind_some, parts]
    rfl

theorem entriesIn_eq
    {state index : Nat}
    {path : List Nat}
    (inRange : index < (graph.regionsOf state).length)
    (leads : Plan.LeadsDown graph state path) :
    entriesIn graph bound (graph.regionsOf state) path index =
      some (Plan.entriesIn graph state index path) :=
  entriesIn_eq_of_children forest inRange leads fun _ below _ =>
    entriesAlong_eq forest enough (Graph.lt_size_of_parentOf below)

/-- Entering all trees ends and finds everything. -/
theorem initial_eq : initial graph bound = some (Plan.initial graph) := by
  have parts : graph.roots.mapM (fun root => entriesAlong graph bound root []) =
      some (graph.roots.map fun root => Plan.entriesAlong graph root []) :=
    mapM_eq_map fun root listed =>
      entriesAlong_eq forest enough (forest.mem_roots_iff.mp listed).1 trivial
  rw [initial, parts, Plan.initial, List.flatMap_def]
  rfl

/-! ### Transitions -/

section Transition

variable
  {source target : Nat}
  (sourceInside : source < graph.size)
  (targetInside : target < graph.size)

include targetInside

theorem pathBelow_eq (above : Option Nat) :
    pathBelow graph bound above target = some (Plan.pathBelow graph above target) := by
  rw [pathBelow, chain_eq forest enough targetInside]
  rfl

section Ends

include sourceInside

theorem domain_eq :
    domain graph bound source target = some (Plan.domain? graph source target) := by
  rw [domain, isWithin_eq forest enough sourceInside, Plan.domain?]
  cases graph.isWithin source target with
  | true => exact parent_eq targetInside
  | false => exact meet_eq forest enough sourceInside targetInside

theorem affectedRegions_eq (domain : Nat) :
    affectedRegions graph bound domain source target =
      some (Plan.affectedRegions graph domain source target) := by
  have branches : [source, target].mapM (childToward graph domain bound) =
      some ([source, target].map (graph.childToward? domain)) := by
    refine mapM_eq_map fun ending isEnd => childToward_eq forest enough ?_ domain
    rcases List.mem_cons.mp isEnd with rfl | isEnd
    · exact sourceInside
    · rwa [List.mem_singleton.mp isEnd]
  have isBranch : ∀ branch ∈ [source, target].filterMap (graph.childToward? domain),
      graph.parentOf branch = some domain := by
    intro branch listed
    obtain ⟨ending, _, toward⟩ := List.mem_filterMap.mp listed
    exact (forest.childToward?_eq_some_iff.mp toward).1
  have touched : ([source, target].filterMap (graph.childToward? domain)).mapM (region graph) =
      some (([source, target].filterMap (graph.childToward? domain)).map graph.regionOf) :=
    mapM_eq_map fun branch listed => region_eq (Graph.lt_size_of_parentOf (isBranch branch listed))
  have inRange : ∀ index ∈
      ([source, target].filterMap (graph.childToward? domain)).map graph.regionOf,
        index < (graph.regionsOf domain).length := by
    intro index listed
    obtain ⟨branch, branchListed, rfl⟩ := List.mem_map.mp listed
    exact forest.regionOf_lt (isBranch branch branchListed)
  rw [affectedRegions, branches]
  simp only [Option.bind_eq_bind, Option.bind_some, List.filterMap_map, Function.id_comp,
    touched]
  rw [dedup_mergeSort_eq inRange]
  rfl

end Ends

section Plan

variable
  (sameTree : graph.rootOf source = graph.rootOf target)
  (flagged : configuration.flags.size = graph.size)

include flagged

/-- Planning to leave and enter a whole tree ends and finds everything, the first state of the
path among it. -/
theorem wholeTree_eq :
    wholeTree graph configuration bound target =
      some (Plan.wholeTree graph configuration target) := by
  have rootInside := forest.above_lt_size (forest.within_rootOf target) targetInside
  have entries := entriesAlong_eq forest enough rootInside
    (Plan.leadsDown_pathBelow forest (forest.within_rootOf target))
  rw [wholeTree, rootOf_eq forest enough targetInside, Plan.wholeTree]
  simp only [Option.bind_eq_bind, Option.bind_some, exitsFrom_eq forest flagged enough rootInside,
    pathBelow_eq forest enough targetInside, Plan.pathBelow_none forest target,
    List.getElem?_cons_zero, List.tail_cons, entries]
  rfl

include sourceInside sameTree

/-- Planning a transition within a tree ends and finds everything. -/
theorem external_eq :
    external graph configuration bound source target =
      some (Plan.external graph configuration source target) := by
  rw [external, domain_eq forest enough sourceInside targetInside, Plan.external]
  rcases Plan.domain?_cases forest sameTree with
    ⟨noDomain, _, _⟩ | ⟨domain, branch, hasDomain, below, branchWithin, _⟩
  · rw [noDomain]
    exact wholeTree_eq forest enough targetInside flagged
  · have domainInside := forest.parent_lt below
    have targetWithin := forest.within_trans branchWithin (forest.within_parent below)
    have inRange : ∀ index ∈ Plan.affectedRegions graph domain source target,
        index < (graph.regionsOf domain).length := fun _ => Plan.lt_of_mem_affectedRegions
    have exits := mapM_eq_map fun index member =>
      exitsIn_eq forest flagged enough (inRange index member)
    have entries := mapM_eq_map fun index member =>
      entriesIn_eq forest enough (inRange index member)
        (Plan.leadsDown_pathBelow forest targetWithin)
    rw [hasDomain]
    simp only [Option.bind_eq_bind, Option.bind_some,
      affectedRegions_eq forest enough sourceInside targetInside, exits,
      pathBelow_eq forest enough targetInside, regions_eq domainInside, entries]
    rfl

end Plan
end Transition
end Bounded
end Forest
end Checked
end Statechart
