import Mathlib
import Statechart.Graph.Validation
import Statechart.Proofs.Graph.Climb
import Statechart.Proofs.Results

/-!
# Validated graphs are forests

The checks of a blueprint leave nothing to chance: keys are distinct, no state lies on a
cycle of parents, and every region has an initial child. So the graph that a blueprint
without problems describes is a forest whose regions agree with the parents.
-/

namespace Statechart

/-- Removing duplicates leaves none. -/
theorem nodup_eraseDups {α : Type} [BEq α] [LawfulBEq α] (list : List α) :
    list.eraseDups.Nodup := by
  induction length : list.length using Nat.strong_induction_on generalizing list with
  | _ length inductionHypothesis =>
      cases list with
      | nil => simp
      | cons first rest =>
          rw [List.eraseDups_cons, List.nodup_cons, List.mem_eraseDups]
          constructor
          · simp
          · refine inductionHypothesis _ ?_ _ rfl
            have shorter := List.length_filter_le (fun other => !other == first) rest
            simp only [List.length_cons] at length
            omega

namespace Blueprint

variable {κ η : Type} [DecidableEq κ]

/-- The first declarations are new, and no two of them have the same key. -/
theorem firstsAfter_distinct (seen : List κ) (declarations : List (Declaration κ)) :
    ((firstsAfter seen declarations).map Declaration.id).Nodup ∧
      ∀ declaration ∈ firstsAfter seen declarations, declaration.id ∉ seen := by
  induction declarations generalizing seen with
  | nil => simp [firstsAfter]
  | cons declaration others inductionHypothesis =>
      rw [firstsAfter]
      by_cases known : declaration.id ∈ seen
      · rw [if_pos known]
        exact inductionHypothesis seen
      · rw [if_neg known]
        obtain ⟨distinct, new⟩ := inductionHypothesis (declaration.id :: seen)
        constructor
        · rw [List.map_cons, List.nodup_cons]
          refine ⟨?_, distinct⟩
          intro repeated
          obtain ⟨other, member, same⟩ := List.mem_map.mp repeated
          exact new other member (same ▸ List.mem_cons_self)
        · intro other member
          rcases List.mem_cons.mp member with rfl | member
          · exact known
          · exact fun old => new other member (List.mem_cons_of_mem _ old)

/-- A blueprint with a declaration has a state. -/
theorem firsts_ne_nil
    {blueprint : Blueprint κ η}
    (declared : blueprint.declarations.isEmpty = false) :
    blueprint.firsts ≠ [] := by
  unfold firsts
  cases list : blueprint.declarations with
  | nil => simp [list] at declared
  | cons declaration others => simp [firstsAfter]

variable (blueprint : Blueprint κ η)

@[simp] theorem size_ids_outline :
    blueprint.outline.ids.size = blueprint.firsts.length := by
  simp [outline]

@[simp] theorem size_parents_outline :
    blueprint.outline.parents.size = blueprint.firsts.length := by
  simp [outline]

theorem size_outline : blueprint.outline.size = blueprint.firsts.length :=
  blueprint.size_ids_outline

theorem id_absent
    {state : Nat}
    (outside : ¬ state < blueprint.outline.size) :
    blueprint.outline.ids[state]? = none :=
  Array.getElem?_eq_none (Nat.le_of_not_lt outside)

theorem id_present
    {state : Nat}
    (inside : state < blueprint.outline.size) :
    ∃ id, blueprint.outline.ids[state]? = some id :=
  ⟨_, Array.getElem?_eq_getElem inside⟩

/-- The keys of an outline are distinct. -/
theorem nodup_ids_outline : blueprint.outline.ids.toList.Nodup := by
  simpa [outline, firsts] using (firstsAfter_distinct [] blueprint.declarations).1

/-- The parents of an outline are states of the outline. -/
theorem parent_lt_size_outline
    {state parent : Nat}
    (below : blueprint.outline.parentOf state = some parent) :
    parent < blueprint.outline.size := by
  unfold Outline.parentOf at below
  rw [Option.join_eq_some_iff] at below
  simp only [outline, List.getElem?_toArray, List.getElem?_map, Option.map_eq_some_iff]
    at below
  obtain ⟨declaration, _, resolved⟩ := below
  rw [Option.bind_eq_some_iff] at resolved
  obtain ⟨key, _, found⟩ := resolved
  obtain ⟨inRange, _⟩ := Array.findIdx?_eq_some_iff_getElem.mp found
  exact inRange

/-- Only the states of an outline have parents. -/
theorem lt_size_outline_of_parentOf
    {state parent : Nat}
    (below : blueprint.outline.parentOf state = some parent) :
    state < blueprint.outline.size := by
  by_contra outside
  have absent : blueprint.outline.parents[state]? = none := by
    apply Array.getElem?_eq_none
    rw [size_parents_outline, ← size_outline]
    exact Nat.le_of_not_lt outside
  simp [Outline.parentOf, absent] at below

end Blueprint

namespace Outline

variable {κ : Type} {outline : Outline κ}

theorem mem_childrenOf_iff
    {parent child : Nat} :
    child ∈ outline.childrenOf parent ↔
      child < outline.size ∧ outline.parentOf child = some parent := by
  simp [childrenOf]

theorem mem_regionChildren_iff
    {parent child : Nat}
    {region : String} :
    child ∈ outline.regionChildren parent region ↔
      child < outline.size ∧ outline.parentOf child = some parent ∧
        outline.labelOf child = region := by
  simp [regionChildren, mem_childrenOf_iff, and_assoc]

theorem nodup_regionChildren (parent : Nat) (region : String) :
    (outline.regionChildren parent region).Nodup :=
  (List.nodup_range.sublist List.filter_sublist).sublist List.filter_sublist

/-- The regions of a state are those that its children name. -/
theorem mem_regionNames_iff
    {parent : Nat}
    {region : String} :
    region ∈ outline.regionNames parent ↔
      ∃ child, child < outline.size ∧ outline.parentOf child = some parent ∧
        outline.labelOf child = region := by
  simp [regionNames, List.mem_eraseDups, mem_childrenOf_iff, and_assoc]

theorem nodup_regionNames (parent : Nat) : (outline.regionNames parent).Nodup :=
  nodup_eraseDups _

end Outline

/-- Picking among a list where every member gives something keeps places. -/
theorem getElem?_filterMap_of_isSome
    {α β : Type}
    {choose : α → Option β}
    {list : List α}
    (total : ∀ member ∈ list, (choose member).isSome)
    (index : Nat) :
    (list.filterMap choose)[index]? = list[index]?.bind choose := by
  induction list generalizing index with
  | nil => simp
  | cons first rest inductionHypothesis =>
      obtain ⟨chosen, chosen_eq⟩ :=
        Option.isSome_iff_exists.mp (total first List.mem_cons_self)
      have restTotal : ∀ member ∈ rest, (choose member).isSome :=
        fun member inRest => total member (List.mem_cons_of_mem _ inRest)
      rw [List.filterMap_cons_some chosen_eq]
      cases index with
      | zero => simp [chosen_eq]
      | succ index => simpa using inductionHypothesis restTotal index

namespace Blueprint

variable {κ η : Type} [DecidableEq κ] [StateKey κ] (blueprint : Blueprint κ η)

/-- A well-formed designation names a child and its parent. -/
theorem parentOf_of_resolveInitial
    {outline : Outline κ}
    {call : κ × κ}
    {parent child : Nat}
    (resolved : resolveInitial outline call = .ok (parent, child)) :
    outline.parentOf child = some parent := by
  unfold resolveInitial at resolved
  split at resolved
  · split at resolved
    · rename_i below
      cases resolved
      exact below
    · contradiction
  · contradiction

/-- The initial child of a region lies in that region. -/
theorem initialOf?_below
    {state child : Nat}
    {region : String}
    (found : initialOf? blueprint.outline (blueprint.designations blueprint.outline)
      state region = some child) :
    blueprint.outline.parentOf child = some state ∧
      blueprint.outline.labelOf child = region := by
  unfold initialOf? at found
  obtain ⟨designation, designated, rfl⟩ := Option.map_eq_some_iff.mp found
  have matching := List.find?_some designated
  rw [Bool.and_eq_true, beq_iff_eq, beq_iff_eq] at matching
  obtain ⟨call, _, resolved⟩ := List.mem_filterMap.mp (List.mem_of_find?_eq_some designated)
  refine ⟨?_, matching.2⟩
  have accepted : resolveInitial blueprint.outline call = .ok designation := by
    cases outcome : resolveInitial blueprint.outline call with
    | error problem => simp [outcome, Except.toOption] at resolved
    | ok pair =>
        simp only [outcome, Except.toOption, Option.some.injEq] at resolved
        rw [resolved]
  rw [← matching.1]
  exact parentOf_of_resolveInitial accepted

/-- Every region has an initial child. -/
def IsFilled : Prop :=
  ∀ state, ∀ region ∈ blueprint.outline.regionNames state,
    (initialOf? blueprint.outline (blueprint.designations blueprint.outline)
      state region).isSome

/-- Without problems about initial children every region has one. -/
theorem isFilled_of_initialProblems
    (clean : blueprint.initialProblems = []) :
    blueprint.IsFilled := by
  intro state region member
  obtain ⟨child, inside, below, label⟩ := Outline.mem_regionNames_iff.mp member
  have stateInside := blueprint.parent_lt_size_outline below
  by_contra missing
  have reported : ConfigurationError.missingInitial (blueprint.outline.nameOf state) region ∈
      blueprint.initialProblems := by
    unfold initialProblems
    apply List.mem_append_right
    refine List.mem_flatMap.mpr ⟨state, List.mem_range.mpr stateInside, ?_⟩
    refine List.mem_map.mpr ⟨region, List.mem_filter.mpr ⟨member, ?_⟩, rfl⟩
    simpa using missing
  rw [clean] at reported
  contradiction

/-- Without problems about cycles no state lies on one. -/
theorem not_isOnCycle_of_cycleProblems
    (clean : blueprint.cycleProblems = [])
    {state : Nat}
    (inside : state < blueprint.outline.size) :
    blueprint.outline.isOnCycle state = false := by
  cases onCycle : blueprint.outline.isOnCycle state with
  | false => rfl
  | true =>
      have reported :
          ConfigurationError.parentCycle (blueprint.outline.nameOf state) ∈
            blueprint.cycleProblems :=
        List.mem_map.mpr
          ⟨state, List.mem_filter.mpr ⟨List.mem_range.mpr inside, onCycle⟩, rfl⟩
      rw [clean] at reported
      contradiction

/-! ## The graph of a blueprint -/

theorem size_graph : blueprint.graph.size = blueprint.outline.size := by
  simp [graph, Graph.size, Outline.size]

theorem node_graph (state : Nat) :
    blueprint.graph.nodes[state]? = (blueprint.outline.ids[state]?).map fun id =>
      { id
        parent := blueprint.outline.parentOf state
        region := blueprint.outline.regionIndex state
        regions := regionsOf blueprint.outline
          (blueprint.designations blueprint.outline) state } := by
  simp [graph]

/-- A graph has the parents of its outline. -/
theorem parentOf_graph (state : Nat) :
    blueprint.graph.parentOf state = blueprint.outline.parentOf state := by
  unfold Graph.parentOf
  rw [node_graph]
  by_cases inside : state < blueprint.outline.size
  · obtain ⟨id, present⟩ := blueprint.id_present inside
    simp [present]
  · rw [blueprint.id_absent inside]
    cases below : blueprint.outline.parentOf state with
    | none => rfl
    | some parent => exact absurd (blueprint.lt_size_outline_of_parentOf below) inside

/-- A child refers to its region by the place of the region's name. -/
theorem regionOf_graph
    {child parent : Nat}
    (below : blueprint.outline.parentOf child = some parent) :
    blueprint.graph.regionOf child =
      (blueprint.outline.regionNames parent).idxOf (blueprint.outline.labelOf child) := by
  obtain ⟨id, present⟩ := blueprint.id_present (blueprint.lt_size_outline_of_parentOf below)
  unfold Graph.regionOf
  rw [node_graph, present]
  simp [Outline.regionIndex, below]

/-- The regions of a state come from the names of its regions. -/
theorem regionsOf_graph (state : Nat) :
    blueprint.graph.regionsOf state = regionsOf blueprint.outline
      (blueprint.designations blueprint.outline) state := by
  unfold Graph.regionsOf
  rw [node_graph]
  by_cases inside : state < blueprint.outline.size
  · obtain ⟨id, present⟩ := blueprint.id_present inside
    simp [present]
  · rw [blueprint.id_absent inside]
    have nameless : blueprint.outline.regionNames state = [] := by
      rw [List.eq_nil_iff_forall_not_mem]
      intro region member
      obtain ⟨child, _, below, _⟩ := Outline.mem_regionNames_iff.mp member
      exact inside (blueprint.parent_lt_size_outline below)
    simp [regionsOf, nameless]

/-- The region at a place has the name at that place, the children of that name, and
their designated initial child. -/
theorem region_graph
    (filled : blueprint.IsFilled)
    {parent index : Nat}
    {region : Region}
    (found : (blueprint.graph.regionsOf parent)[index]? = some region) :
    (blueprint.outline.regionNames parent)[index]? = some region.name ∧
      region.children = blueprint.outline.regionChildren parent region.name ∧
      initialOf? blueprint.outline (blueprint.designations blueprint.outline)
        parent region.name = some region.initial := by
  rw [regionsOf_graph, regionsOf, getElem?_filterMap_of_isSome] at found
  · obtain ⟨label, named, described⟩ := Option.bind_eq_some_iff.mp found
    obtain ⟨initial, designated, rfl⟩ := Option.map_eq_some_iff.mp described
    exact ⟨named, rfl, designated⟩
  · intro label member
    rw [Option.isSome_map]
    exact filled parent label member

/-- A state has as many regions as region names. -/
theorem length_regionsOf_graph
    (filled : blueprint.IsFilled)
    (parent : Nat) :
    (blueprint.graph.regionsOf parent).length =
      (blueprint.outline.regionNames parent).length := by
  rw [regionsOf_graph, regionsOf, List.length_filterMap_eq_countP, List.countP_eq_length]
  intro label member
  rw [Option.isSome_map]
  exact filled parent label member

/-- A region holds the children that refer to its place. -/
theorem mem_children_graph_iff
    (filled : blueprint.IsFilled)
    {parent index child : Nat}
    {region : Region}
    (found : (blueprint.graph.regionsOf parent)[index]? = some region) :
    child ∈ region.children ↔
      blueprint.graph.parentOf child = some parent ∧
        blueprint.graph.regionOf child = index := by
  obtain ⟨named, children_eq, _⟩ := blueprint.region_graph filled found
  obtain ⟨inRange, name_eq⟩ := List.getElem?_eq_some_iff.mp named
  rw [children_eq, Outline.mem_regionChildren_iff, parentOf_graph]
  constructor
  · rintro ⟨_, below, label⟩
    refine ⟨below, ?_⟩
    rw [blueprint.regionOf_graph below, label, ← name_eq]
    exact (Outline.nodup_regionNames parent).idxOf_getElem index inRange
  · rintro ⟨below, place⟩
    have inside := blueprint.lt_size_outline_of_parentOf below
    refine ⟨inside, below, ?_⟩
    rw [blueprint.regionOf_graph below] at place
    subst place
    rw [← name_eq, List.getElem_idxOf]

/-- A blueprint that passes all checks describes a forest. -/
theorem isForest_graph
    (declared : blueprint.declarations.isEmpty = false)
    (acyclic : blueprint.cycleProblems = [])
    (filled : blueprint.IsFilled) :
    blueprint.graph.IsForest where
  nonempty := by
    rw [size_graph, size_outline]
    exact List.length_pos_iff.mpr (firsts_ne_nil declared)
  parent_lt := by
    intro state parent below
    rw [parentOf_graph] at below
    rw [size_graph]
    exact blueprint.parent_lt_size_outline below
  grounded := by
    intro state inside
    rw [size_graph] at inside
    have sameParents : blueprint.graph.parentOf = blueprint.outline.parentOf :=
      funext blueprint.parentOf_graph
    rcases climb_stops_or_returns blueprint.parent_lt_size_outline inside with
      ⟨steps, root, bounded, climbed, isRoot⟩ |
        ⟨steps, reached, positive, bounded, reachedInside, climbed⟩
    · refine ⟨root, ?_, by rw [parentOf_graph]; exact isRoot⟩
      rw [Graph.chain, Graph.mem_chainWithin_iff, sameParents, size_graph]
      exact ⟨steps, bounded, climbed⟩
    · have onCycle := Outline.isOnCycle_iff.mpr ⟨steps, positive, bounded, climbed⟩
      rw [blueprint.not_isOnCycle_of_cycleProblems acyclic reachedInside] at onCycle
      contradiction
  mem_roots_iff := by
    intro root
    rw [size_graph, parentOf_graph]
    simp [graph, Outline.roots]
  roots_nodup := List.nodup_range.sublist List.filter_sublist
  mem_children_iff := blueprint.mem_children_graph_iff filled
  regionOf_lt := by
    intro parent child below
    rw [parentOf_graph] at below
    rw [blueprint.regionOf_graph below, blueprint.length_regionsOf_graph filled]
    apply List.idxOf_lt_length_of_mem
    rw [Outline.mem_regionNames_iff]
    exact ⟨child, blueprint.lt_size_outline_of_parentOf below, below, rfl⟩
  children_nodup := by
    intro parent region member
    obtain ⟨index, found⟩ := List.mem_iff_getElem?.mp member
    rw [(blueprint.region_graph filled found).2.1]
    exact Outline.nodup_regionChildren parent region.name
  initial_mem := by
    intro parent region member
    obtain ⟨index, found⟩ := List.mem_iff_getElem?.mp member
    obtain ⟨_, children_eq, designated⟩ := blueprint.region_graph filled found
    obtain ⟨below, label⟩ := blueprint.initialOf?_below designated
    rw [children_eq, Outline.mem_regionChildren_iff]
    exact ⟨blueprint.lt_size_outline_of_parentOf below, below, label⟩
  key_injective := by
    intro first second key firstKey secondKey
    unfold Graph.key? at firstKey secondKey
    rw [node_graph, Option.map_map] at firstKey secondKey
    obtain ⟨firstId, firstPresent, rfl⟩ := Option.map_eq_some_iff.mp firstKey
    obtain ⟨secondId, secondPresent, same⟩ := Option.map_eq_some_iff.mp secondKey
    simp only [Function.comp_apply] at same
    rw [← Array.getElem?_toList] at firstPresent secondPresent
    obtain ⟨firstInside, first_eq⟩ := List.getElem?_eq_some_iff.mp firstPresent
    obtain ⟨secondInside, second_eq⟩ := List.getElem?_eq_some_iff.mp secondPresent
    exact (List.Nodup.getElem_inj_iff blueprint.nodup_ids_outline).mp
      (first_eq.trans (same.symm.trans second_eq.symm))

/-- The roots of a graph are listed in the order of their numbers. -/
theorem sorted_roots_graph : blueprint.graph.roots.Pairwise (· < ·) :=
  List.pairwise_lt_range.sublist List.filter_sublist

/-- A blueprint that validates does so with the graph that it describes. -/
theorem eq_graph_of_validate
    {graph : Graph κ}
    (validated : blueprint.validate = .ok graph) :
    graph = blueprint.graph := by
  unfold validate at validated
  split at validated
  · contradiction
  · obtain ⟨_, _, validated⟩ := bind_eq_ok.mp validated
    obtain ⟨_, _, validated⟩ := bind_eq_ok.mp validated
    obtain ⟨_, _, graph_eq⟩ := bind_eq_ok.mp validated
    exact (Except.ok.inj graph_eq).symm

/-- A blueprint that validates has none of the problems that are looked for last. -/
theorem no_problems_of_validate
    {graph : Graph κ}
    (validated : blueprint.validate = .ok graph) :
    blueprint.declarations.isEmpty = false ∧ blueprint.cycleProblems = [] ∧
      blueprint.initialProblems = [] := by
  unfold validate at validated
  split at validated
  · contradiction
  · rename_i declared
    obtain ⟨_, _, validated⟩ := bind_eq_ok.mp validated
    obtain ⟨_, acyclic, validated⟩ := bind_eq_ok.mp validated
    obtain ⟨_, clean, _⟩ := bind_eq_ok.mp validated
    exact ⟨Bool.eq_false_iff.mpr declared, (ConfigurationError.verdict_eq_ok_iff _).mp acyclic,
      (ConfigurationError.verdict_eq_ok_iff _).mp clean⟩

/-- In a blueprint that validates every region has an initial child. -/
theorem isFilled_of_validate
    {graph : Graph κ}
    (validated : blueprint.validate = .ok graph) :
    blueprint.IsFilled :=
  blueprint.isFilled_of_initialProblems (blueprint.no_problems_of_validate validated).2.2

/-- The graph of a blueprint that validates is a forest. -/
theorem isForest_of_validate
    {graph : Graph κ}
    (validated : blueprint.validate = .ok graph) :
    graph.IsForest := by
  obtain ⟨declared, acyclic, _⟩ := blueprint.no_problems_of_validate validated
  rw [blueprint.eq_graph_of_validate validated]
  exact blueprint.isForest_graph declared acyclic (blueprint.isFilled_of_validate validated)

/-- A chart of one composite state with two regions. -/
def twoRegions (η : Type) : Blueprint String η :=
  Blueprint.empty
    |>.state "on"
    |>.substateIn "red" "on" "light"
    |>.substateIn "green" "on" "light"
    |>.substateIn "mute" "on" "sound"
    |>.substateIn "loud" "on" "sound"
    |>.initial "on" "red"
    |>.initial "on" "mute"

theorem validate_twoRegions (η : Type) :
    (twoRegions η).validate = .ok (twoRegions η).graph := by cbv

end Blueprint
end Statechart
