import Statechart.Proofs.Graph.Numbering
import Statechart.Proofs.Graph.Verdict

/-!
# The layout of a validated graph

A validated graph stores its states as they were declared and groups the children of a state
into regions. All walks through it come to an end, and its depth-first numbers follow its
trees.
-/

namespace Statechart

/-- Names without repetition come in the order of the first members that have them. -/
theorem pairwise_eraseDups_map
    {α β : Type}
    [DecidableEq β]
    {before : α → α → Prop}
    {list : List α}
    (name : α → β)
    (sorted : list.Pairwise before) :
    (list.map name).eraseDups.Pairwise fun earlier later =>
      ∃ first second, list.find? (name · == earlier) = some first ∧
        list.find? (name · == later) = some second ∧ before first second := by
  induction length : list.length using Nat.strong_induction_on generalizing list with
  | _ length inductionHypothesis =>
      cases list with
      | nil => simp
      | cons head rest =>
          rw [List.pairwise_cons] at sorted
          obtain ⟨headFirst, restSorted⟩ := sorted
          rw [List.map_cons, List.eraseDups_cons, List.filter_map, List.pairwise_cons]
          constructor
          · intro later listed
            rw [List.mem_eraseDups, List.mem_map] at listed
            obtain ⟨member, kept, rfl⟩ := listed
            obtain ⟨inRest, different⟩ := List.mem_filter.mp kept
            obtain ⟨second, found⟩ : ∃ second,
                rest.find? (name · == name member) = some second :=
              Option.isSome_iff_exists.mp (List.find?_isSome.mpr ⟨member, inRest, by simp⟩)
            refine ⟨head, second, by simp, ?_, headFirst second (List.mem_of_find?_eq_some found)⟩
            rw [List.find?_cons_of_neg, found]
            simpa using Ne.symm (by simpa using different : name member ≠ name head)
          · have shorter :=
              List.length_filter_le ((fun other => !other == name head) ∘ name) rest
            simp only [List.length_cons] at length
            refine (inductionHypothesis _ (by omega) (restSorted.filter _) rfl).imp_of_mem ?_
            -- A name that is not that of the head is first met behind it.
            have behind {other : β}
                (listed : other ∈ ((rest.filter fun member => !name member == name head).map
                  name).eraseDups) :
                (head :: rest).find? (name · == other) =
                  (rest.filter fun member => !name member == name head).find?
                    (name · == other) := by
              rw [List.mem_eraseDups, List.mem_map] at listed
              obtain ⟨member, kept, rfl⟩ := listed
              have different : name member ≠ name head := by
                simpa using (List.mem_filter.mp kept).2
              rw [List.find?_cons_of_neg (by simpa using different.symm), List.find?_filter]
              congr 1
              funext candidate
              by_cases same : name candidate = name member
              · simp [same, different]
              · simp [same]
            rintro earlier later earlierListed laterListed
              ⟨first, second, found, foundLater, ordered⟩
            exact ⟨first, second, (behind earlierListed).trans found,
              (behind laterListed).trans foundLater, ordered⟩

namespace Graph

variable {κ : Type}

/-! ## Promises -/

/-- The states of a graph are the declared ones, in the order of their declarations. -/
structure IsDeclaredBy
    [DecidableEq κ]
    (graph : Graph κ)
    (declarations : List (Declaration κ)) : Prop where
  /-- No key is declared twice. -/
  distinct : (declarations.map Declaration.id).Nodup
  /-- There are as many states as declared keys. -/
  size_eq : graph.size = declarations.length
  /-- A state has the key that is declared at its place. -/
  key?_eq (state : Nat) : graph.key? state = declarations[state]?.map Declaration.id
  /-- A key is found at the place of its declaration. -/
  indexOf?_eq_some_iff {key : κ} {state : Nat} :
    graph.indexOf? key = some state ↔ declarations[state]?.map Declaration.id = some key
  /-- A state lies in the state that its declaration names. -/
  parent_eq {state : Nat} {declaration : Declaration κ} :
    declarations[state]? = some declaration →
      (graph.parentOf state).bind graph.key? = declaration.parent
  /-- The roots are the states without a parent, in the order of their declarations. -/
  roots_eq :
    graph.roots = (List.range graph.size).filter fun state => (graph.parentOf state).isNone

/-- The children of each state are grouped into its regions as they are declared. -/
structure IsGroupedBy (graph : Graph κ) (declarations : List (Declaration κ)) : Prop where
  /-- The states in the regions of a state are those that have it as their parent. -/
  mem_childrenOf_iff {parent child : Nat} :
    child ∈ graph.childrenOf parent ↔ graph.parentOf child = some parent
  /-- A child is in one region of its parent, the one that is recorded for it. -/
  mem_children_iff {parent index child : Nat} {region : Region} :
    (graph.regionsOf parent)[index]? = some region →
      (child ∈ region.children ↔
        graph.parentOf child = some parent ∧ graph.regionOf child = index)
  /-- No region is empty. -/
  children_ne_nil {parent : Nat} {region : Region} :
    region ∈ graph.regionsOf parent → region.children ≠ []
  /-- The regions of a state have different names. -/
  nodup_names (parent : Nat) : ((graph.regionsOf parent).map Region.name).Nodup
  /-- A region has the name that its children are declared with. -/
  name_eq {parent child : Nat} {region : Region} {declaration : Declaration κ} :
    region ∈ graph.regionsOf parent → child ∈ region.children →
      declarations[child]? = some declaration → region.name = declaration.region
  /-- The regions of a state come in the order of their first children. -/
  pairwise_regions (parent : Nat) :
    (graph.regionsOf parent).Pairwise fun earlier later =>
      ∃ first second, earlier.children.head? = some first ∧
        later.children.head? = some second ∧ first < second
  /-- The children in a region come in the order of their declarations. -/
  pairwise_children {parent : Nat} {region : Region} :
    region ∈ graph.regionsOf parent → region.children.Pairwise (· < ·)
  /-- The initial child of a region is one of its children. -/
  initial_mem {parent : Nat} {region : Region} :
    region ∈ graph.regionsOf parent → region.initial ∈ region.children

/-- Walks through a graph come to an end on their own, and no walk is cut short by its
bound. -/
structure HasFiniteWalks (graph : Graph κ) : Prop where
  /-- The way up goes from each state to its parent. -/
  chain_eq (state : Nat) :
    graph.chain state = state :: ((graph.parentOf state).map graph.chain).getD []
  /-- The way up does not come to any state twice. -/
  nodup_chain (state : Nat) : (graph.chain state).Nodup
  /-- The way up from a state ends at a root. -/
  exists_root {state : Nat} :
    state < graph.size → ∃ root ∈ graph.roots, (graph.chain state).getLast? = some root
  /-- Going from children to parents comes to an end. -/
  upward : WellFounded fun parent child => graph.parentOf child = some parent
  /-- Going from parents to children comes to an end. -/
  downward : WellFounded fun child parent => graph.parentOf child = some parent
  /-- A larger bound makes no way up longer. -/
  chainWithin_eq {bound : Nat} : graph.size ≤ bound →
    ∀ state, graph.chainWithin bound state = graph.chain state
  /-- A larger bound lets no way up meet more states. -/
  reachesWithin_eq {bound : Nat} : graph.size ≤ bound →
    ∀ state above, graph.reachesWithin above bound state = graph.isWithin state above
  /-- A larger bound leads to the same root. -/
  topWithin_eq {bound : Nat} : graph.size ≤ bound →
    ∀ state, graph.topWithin bound state = graph.rootOf state
  /-- A larger bound leads to the same child on the way down to a state. -/
  stepBelowWithin_eq {bound : Nat} : graph.size ≤ bound →
    ∀ state above, graph.stepBelowWithin above bound state = graph.childToward? above state
  /-- A larger bound lists nothing more below a state. -/
  preorderWithin_eq {bound : Nat} : graph.size ≤ bound →
    ∀ state, graph.preorderWithin bound state = graph.subtree state
  /-- A larger bound enters nothing more below a state. -/
  initialLeavesWithin_eq {bound : Nat} : graph.size ≤ bound →
    ∀ state, graph.initialLeavesWithin bound state = graph.initialLeaves state

/-- The states of a graph are numbered depth first. -/
structure IsNumberedDepthFirst (graph : Graph κ) : Prop where
  /-- Counting through the trees gives every state its place in the depth-first order as its
  number. -/
  numbers_eq {state : Nat} :
    state < graph.size → graph.numbers[state]? = some (graph.orderOf state)
  /-- The numbers of the states are those below the number of states, each once. -/
  bijOn_orderOf :
    Set.BijOn graph.orderOf {state | state < graph.size} {place | place < graph.size}
  /-- A root comes next after everything within the earlier roots. -/
  orderOf_root {root : Nat} {earlier later : List Nat} :
    graph.roots = earlier ++ root :: later →
      graph.orderOf root = (earlier.map graph.countWithin).sum
  /-- A child comes next after its parent and everything within the earlier children. -/
  orderOf_child {parent child : Nat} {earlier later : List Nat} :
    graph.childrenOf parent = earlier ++ child :: later →
      graph.orderOf child = graph.orderOf parent + 1 + (earlier.map graph.countWithin).sum
  /-- A state lies within another one exactly if its number is in the interval that starts
  with the number of the other one and has as many numbers as states lie within it. -/
  isWithin_iff {state above : Nat} :
    above < graph.size →
      (graph.isWithin state above = true ↔
        graph.orderOf above ≤ graph.orderOf state ∧
          graph.orderOf state < graph.orderOf above + graph.countWithin above)
  /-- Everything within the children of earlier regions comes before everything within those
  of later regions. -/
  pairwise_regions (parent : Nat) :
    (graph.regionsOf parent).Pairwise fun earlier later =>
      ∀ first ∈ earlier.children, ∀ second ∈ later.children, graph.Precedes first second
  /-- Everything within earlier children of a region comes before everything within later
  ones. -/
  pairwise_siblings {parent : Nat} {region : Region} :
    region ∈ graph.regionsOf parent → region.children.Pairwise graph.Precedes
  /-- Everything within earlier roots comes before everything within later ones. -/
  pairwise_roots : graph.roots.Pairwise graph.Precedes

/-- A graph is laid out as declared. -/
structure IsLaidOutAs
    [DecidableEq κ]
    (graph : Graph κ)
    (declarations : List (Declaration κ)) : Prop where
  declared : graph.IsDeclaredBy declarations
  grouped : graph.IsGroupedBy declarations
  walks : graph.HasFiniteWalks
  numbered : graph.IsNumberedDepthFirst

/-! ## Forests -/

namespace IsForest

variable {graph : Graph κ} (forest : graph.IsForest)

include forest

theorem exists_root_of_chain
    {state : Nat}
    (inside : state < graph.size) :
    ∃ root ∈ graph.roots, (graph.chain state).getLast? = some root := by
  induction state using forest.inductionFromAbove with
  | root state isRoot =>
      exact ⟨state, forest.mem_roots_iff.mpr ⟨inside, isRoot⟩,
        by rw [forest.chain_of_root isRoot]; rfl⟩
  | child state parent below inductionHypothesis =>
      obtain ⟨root, isRoot, last⟩ := inductionHypothesis (forest.parent_lt below)
      refine ⟨root, isRoot, ?_⟩
      rw [forest.chain_of_parent below, List.getLast?_cons, last]
      rfl

theorem hasFiniteWalks : graph.HasFiniteWalks where
  chain_eq state := by
    cases below : graph.parentOf state with
    | none => exact forest.chain_of_root below
    | some parent => exact forest.chain_of_parent below
  nodup_chain := forest.nodup_chain
  exists_root := forest.exists_root_of_chain
  upward := forest.wellFounded_upward
  downward := forest.wellFounded_downward
  chainWithin_eq := forest.chainWithin_eq
  reachesWithin_eq := forest.reachesWithin_eq
  topWithin_eq := forest.topWithin_eq
  stepBelowWithin_eq := forest.stepBelowWithin_eq
  preorderWithin_eq := forest.preorderWithin_eq
  initialLeavesWithin_eq := forest.initialLeavesWithin_eq

theorem isNumberedDepthFirst : graph.IsNumberedDepthFirst where
  numbers_eq := forest.getElem?_numbers
  bijOn_orderOf := forest.bijOn_orderOf
  orderOf_root := forest.orderOf_root
  orderOf_child := forest.orderOf_child
  isWithin_iff inside := by
    rw [graph.isWithin_iff]
    exact forest.within_iff_orderOf inside
  pairwise_regions parent :=
    (List.pairwise_flatMap.mp (forest.pairwise_precedes_children parent)).2
  pairwise_siblings listed :=
    (List.pairwise_flatMap.mp (forest.pairwise_precedes_children _)).1 _ listed
  pairwise_roots := forest.pairwise_precedes_roots

end IsForest
end Graph

/-! ## Regions -/

namespace Outline

variable {κ : Type} (outline : Outline κ)

theorem pairwise_childrenOf (parent : Nat) : (outline.childrenOf parent).Pairwise (· < ·) :=
  List.pairwise_lt_range.filter _

/-- The names of regions come in the order of the first children that name them. -/
theorem pairwise_regionNames (parent : Nat) :
    (outline.regionNames parent).Pairwise fun earlier later =>
      ∃ first second, (outline.regionChildren parent earlier).head? = some first ∧
        (outline.regionChildren parent later).head? = some second ∧ first < second := by
  simp only [regionChildren, List.head?_filter]
  exact pairwise_eraseDups_map outline.labelOf (outline.pairwise_childrenOf parent)

end Outline

namespace Blueprint

variable {κ η : Type} [DecidableEq κ] [StateKey κ] {blueprint : Blueprint κ η}

/-- Regions have the names in the outline and hold the children that the outline names. -/
theorem regionsOf_graph_eq
    (filled : blueprint.IsFilled)
    (parent : Nat) :
    (blueprint.graph.regionsOf parent).map Region.name = blueprint.outline.regionNames parent ∧
      ∀ region ∈ blueprint.graph.regionsOf parent,
        region.children = blueprint.outline.regionChildren parent region.name := by
  constructor
  · refine List.ext_getElem? fun index => ?_
    rw [List.getElem?_map]
    cases found : (blueprint.graph.regionsOf parent)[index]? with
    | none =>
        rw [List.getElem?_eq_none_iff, blueprint.length_regionsOf_graph filled] at found
        rw [List.getElem?_eq_none found]
        rfl
    | some region => exact (blueprint.region_graph filled found).1.symm
  · intro region listed
    obtain ⟨index, found⟩ := List.mem_iff_getElem?.mp listed
    exact (blueprint.region_graph filled found).2.1

theorem isGroupedBy_graph
    (distinct : (blueprint.declarations.map Declaration.id).Nodup)
    (filled : blueprint.IsFilled)
    (forest : blueprint.graph.IsForest) :
    blueprint.graph.IsGroupedBy blueprint.declarations where
  mem_childrenOf_iff := forest.mem_childrenOf_iff
  mem_children_iff := forest.mem_children_iff
  children_ne_nil listed := List.ne_nil_of_mem (forest.initial_mem listed)
  nodup_names parent := by
    rw [(regionsOf_graph_eq filled parent).1]
    exact Outline.nodup_regionNames parent
  name_eq listed inRegion found := by
    rw [(regionsOf_graph_eq filled _).2 _ listed, Outline.mem_regionChildren_iff] at inRegion
    rw [← inRegion.2.2, labelOf_outline distinct found]
  pairwise_regions parent := by
    obtain ⟨names_eq, children_eq⟩ := regionsOf_graph_eq filled parent
    have ordered := blueprint.outline.pairwise_regionNames parent
    rw [← names_eq, List.pairwise_map] at ordered
    refine ordered.imp_of_mem fun earlierListed laterListed => ?_
    rw [children_eq _ earlierListed, children_eq _ laterListed]
    exact id
  pairwise_children listed := by
    rw [(regionsOf_graph_eq filled _).2 _ listed]
    exact (blueprint.outline.pairwise_childrenOf _).filter _
  initial_mem := forest.initial_mem

/-! ## States -/

theorem key?_graph
    (distinct : (blueprint.declarations.map Declaration.id).Nodup)
    (state : Nat) :
    blueprint.graph.key? state = blueprint.declarations[state]?.map Declaration.id := by
  rw [Graph.key?, node_graph, Option.map_map, getElem?_ids_outline distinct, Option.map_map]
  rfl

theorem isDeclaredBy_graph
    (wellFormed : blueprint.IsWellFormed)
    (forest : blueprint.graph.IsForest) :
    blueprint.graph.IsDeclaredBy blueprint.declarations where
  distinct := wellFormed.distinct
  size_eq := by rw [size_graph, size_outline_eq wellFormed.distinct]
  key?_eq := key?_graph wellFormed.distinct
  indexOf?_eq_some_iff := by
    intro key state
    rw [forest.indexOf?_eq_some_iff, key?_graph wellFormed.distinct]
  parent_eq := by
    intro state declaration found
    rw [parentOf_graph, parentOf_outline wellFormed.distinct found]
    cases named : declaration.parent with
    | none => rfl
    | some key =>
        obtain ⟨upper, listed, rfl⟩ :=
          (wellFormed.parent_declared (List.mem_of_getElem? found) named).2
        obtain ⟨place, placed⟩ := List.mem_iff_getElem?.mp listed
        have numbered : blueprint.outline.indexOf? upper.id = some place :=
          (indexOf?_outline_eq_some_iff wellFormed.distinct).mpr ⟨upper, placed, rfl⟩
        rw [Option.bind_some, numbered, Option.bind_some, key?_graph wellFormed.distinct, placed]
        rfl
  roots_eq := by
    have sameParents : blueprint.graph.parentOf = blueprint.outline.parentOf :=
      funext blueprint.parentOf_graph
    rw [sameParents, size_graph]
    rfl

/-- A graph that passed the check of a blueprint is laid out as the blueprint declares. -/
theorem isLaidOutAs_of_validate
    {graph : Graph κ}
    (validated : blueprint.validate = .ok graph) :
    graph.IsLaidOutAs blueprint.declarations := by
  have forest := blueprint.isForest_of_validate validated
  have wellFormed : blueprint.IsWellFormed := by
    rw [isWellFormed_iff, ← ConfigurationError.verdict_eq_ok_iff]
    rw [validate_eq] at validated
    obtain ⟨_, accepted, _⟩ := map_eq_ok.mp validated
    exact accepted
  have filled := blueprint.isFilled_of_validate validated
  cases blueprint.eq_graph_of_validate validated
  exact
    { declared := isDeclaredBy_graph wellFormed forest
      grouped := isGroupedBy_graph wellFormed.distinct filled forest
      walks := forest.hasFiniteWalks
      numbered := forest.isNumberedDepthFirst }

/-- The chart of two regions is laid out as it is declared. -/
theorem isLaidOutAs_of_validate_twoRegions :
    (twoRegions Unit).graph.IsLaidOutAs (twoRegions Unit).declarations :=
  isLaidOutAs_of_validate (validate_twoRegions Unit)

end Blueprint
end Statechart
