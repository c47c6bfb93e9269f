import Statechart.Proofs.Graph.Kinship
import Statechart.Proofs.Graph.Layout

/-!
# The order of the calls that describe a chart

The check of a blueprint goes through the declarations and the designations in the order of the
calls, and the graph numbers its states in that order. What the graph says of its keys follows
from which declarations and designations there are, in whatever order. So the calls may come
in any order, children before their parents and initial children before their states.
-/

namespace Statechart

namespace Graph

variable {κ : Type} [DecidableEq κ]

/-- Two graphs have the same hierarchy and differ at most in the order of roots, regions,
siblings and leaves. -/
structure SharesHierarchy (first second : Graph κ) : Prop where
  /-- They have the same states. -/
  contains_eq (key : κ) : first.contains key = second.contains key
  /-- A state has the same parent in both. -/
  parent?_eq (key : κ) : first.parent? key = second.parent? key
  /-- A state has the same ancestors in both. -/
  ancestors_eq (key : κ) : first.ancestors key = second.ancestors key
  /-- The same states lie below each other. -/
  isDescendant_eq (below above : κ) :
    first.isDescendant below above = second.isDescendant below above
  /-- Two states have the same state in common. -/
  lca?_eq (left right : κ) : first.lca? left right = second.lca? left right
  /-- The regions of a state have the same names. -/
  regionNames_perm (key : κ) :
    ((first.regions key).map Prod.fst).Perm ((second.regions key).map Prod.fst)
  /-- Regions of one name have the same children. -/
  children_perm {key : κ} {name : String} {children others : List κ} :
    (name, children) ∈ first.regions key → (name, others) ∈ second.regions key →
      children.Perm others
  /-- Entering a state by default leads to the same leaves. -/
  defaultLeaves_perm (key : κ) : (first.defaultLeaves key).Perm (second.defaultLeaves key)
  /-- The same states are roots. -/
  rootKeys_perm : first.rootKeys.Perm second.rootKeys

end Graph

namespace Blueprint

variable {κ η : Type}

/-- Some behaviour is attached to a state. -/
def IsAttachedTo (blueprint : Blueprint κ η) (state : κ) : Prop :=
  ∃ registration ∈ blueprint.hooks.entries ++ blueprint.hooks.exits, registration.1 = state

/-- Two blueprints say the same of the hierarchy, in any order. -/
structure IsReorderingOf (blueprint other : Blueprint κ η) : Prop where
  /-- They declare the same states. -/
  declarations_perm : blueprint.declarations.Perm other.declarations
  /-- They designate the same initial children. -/
  initials_perm : blueprint.initials.Perm other.initials
  /-- They attach behaviour to the same states. -/
  isAttachedTo_iff (state : κ) : blueprint.IsAttachedTo state ↔ other.IsAttachedTo state

/-! ## What is said in any order -/

namespace IsReorderingOf

variable {blueprint other : Blueprint κ η}

theorem symm (reordering : blueprint.IsReorderingOf other) : other.IsReorderingOf blueprint where
  declarations_perm := reordering.declarations_perm.symm
  initials_perm := reordering.initials_perm.symm
  isAttachedTo_iff state := (reordering.isAttachedTo_iff state).symm

variable (reordering : blueprint.IsReorderingOf other)

include reordering

theorem isDeclared_iff {key : κ} : blueprint.IsDeclared key ↔ other.IsDeclared key := by
  simp only [IsDeclared, reordering.declarations_perm.mem_iff]

theorem liesIn_iff {child parent : κ} {region : String} :
    blueprint.LiesIn child parent region ↔ other.LiesIn child parent region := by
  simp only [LiesIn, reordering.declarations_perm.mem_iff]

theorem isChild_iff {child parent : κ} :
    blueprint.IsChild child parent ↔ other.IsChild child parent :=
  exists_congr fun _ => reordering.liesIn_iff

theorem isBelow_iff {below above : κ} :
    blueprint.IsBelow below above ↔ other.IsBelow below above := by
  have sameChildren : blueprint.IsChild = other.IsChild :=
    funext₂ fun _ _ => propext reordering.isChild_iff
  rw [IsBelow, IsBelow, sameChildren]

/-- What a blueprint has to meet does not depend on any order. -/
theorem isWellFormed (wellFormed : blueprint.IsWellFormed) : other.IsWellFormed where
  nonempty empty := wellFormed.nonempty (List.perm_nil.mp (empty ▸ reordering.declarations_perm))
  distinct := (reordering.declarations_perm.map Declaration.id).nodup_iff.mp wellFormed.distinct
  parent_declared := by
    intro declaration parent listed named
    rw [← reordering.isDeclared_iff]
    exact wellFormed.parent_declared (reordering.declarations_perm.mem_iff.mpr listed) named
  behaviour_declared := by
    intro registration registered
    obtain ⟨known, knownRegistered, same⟩ :=
      (reordering.isAttachedTo_iff registration.1).mpr ⟨registration, registered, rfl⟩
    rw [← reordering.isDeclared_iff, ← same]
    exact wellFormed.behaviour_declared knownRegistered
  acyclic key below := wellFormed.acyclic key (reordering.isBelow_iff.mpr below)
  initial_child := by
    intro parent child designated
    rw [← reordering.isChild_iff]
    exact wellFormed.initial_child (reordering.initials_perm.mem_iff.mpr designated)
  initial_unique := by
    intro parent first second region firstDesignated secondDesignated firstIn secondIn
    exact wellFormed.initial_unique (reordering.initials_perm.mem_iff.mpr firstDesignated)
      (reordering.initials_perm.mem_iff.mpr secondDesignated)
      (reordering.liesIn_iff.mpr firstIn) (reordering.liesIn_iff.mpr secondIn)
  initial_given := by
    intro child parent region inRegion
    obtain ⟨initial, designated, initialIn⟩ :=
      wellFormed.initial_given (reordering.liesIn_iff.mpr inRegion)
    exact ⟨initial, reordering.initials_perm.mem_iff.mp designated,
      reordering.liesIn_iff.mp initialIn⟩

theorem isWellFormed_iff : blueprint.IsWellFormed ↔ other.IsWellFormed :=
  ⟨reordering.isWellFormed, reordering.symm.isWellFormed⟩

end IsReorderingOf

variable [DecidableEq κ]

/-- The first child designated for a region is the only one. -/
theorem IsWellFormed.firstInitial?_eq_some_iff
    {blueprint : Blueprint κ η}
    (wellFormed : blueprint.IsWellFormed)
    {parent child : κ}
    {region : String} :
    blueprint.firstInitial? parent region = some child ↔
      (parent, child) ∈ blueprint.initials ∧ blueprint.LiesIn child parent region := by
  constructor
  · exact blueprint.of_firstInitial?_eq_some
  · rintro ⟨designated, inRegion⟩
    obtain ⟨first, isFirst⟩ := blueprint.exists_firstInitial?_of_mem designated inRegion
    obtain ⟨firstDesignated, firstIn⟩ := blueprint.of_firstInitial?_eq_some isFirst
    rw [isFirst, wellFormed.initial_unique firstDesignated designated firstIn inRegion]

/-- The child designated for a region does not depend on any order. -/
theorem IsReorderingOf.firstInitial?_eq
    {blueprint other : Blueprint κ η}
    (reordering : blueprint.IsReorderingOf other)
    (wellFormed : blueprint.IsWellFormed)
    (parent : κ)
    (region : String) :
    blueprint.firstInitial? parent region = other.firstInitial? parent region := by
  refine Option.ext fun child => ?_
  rw [wellFormed.firstInitial?_eq_some_iff,
    (reordering.isWellFormed wellFormed).firstInitial?_eq_some_iff,
    reordering.initials_perm.mem_iff, reordering.liesIn_iff]

end Blueprint

/-! ## Graphs by key -/

/-- A graph shows what a blueprint says, key by key. -/
structure Graph.IsChartOf
    {κ η : Type}
    [DecidableEq κ]
    (graph : Graph κ)
    (blueprint : Blueprint κ η) : Prop where
  forest : graph.IsForest
  /-- The states are the declared ones. -/
  contains_iff {key : κ} : graph.contains key = true ↔ blueprint.IsDeclared key
  /-- A state lies in the state that it is declared below. -/
  parent?_eq_some_iff {child parent : κ} :
    graph.parent? child = some parent ↔ blueprint.IsChild child parent
  /-- The regions of a state have different names. -/
  nodup_names (parent : Nat) : ((graph.regionsOf parent).map Region.name).Nodup
  /-- There is a region for every name that children are declared with. -/
  mem_names_iff {key : κ} {parent : Nat} {name : String} :
    graph.indexOf? key = some parent →
      (name ∈ (graph.regionsOf parent).map Region.name ↔
        ∃ child, blueprint.LiesIn child key name)
  /-- A region holds the children that are declared with its name. -/
  mem_children_iff {key child : κ} {parent : Nat} {region : Region} :
    graph.indexOf? key = some parent → region ∈ graph.regionsOf parent →
      (child ∈ graph.keys region.children ↔ blueprint.LiesIn child key region.name)
  /-- The initial child of a region is the one designated for it. -/
  firstInitial?_eq {key : κ} {parent : Nat} {region : Region} :
    graph.indexOf? key = some parent → region ∈ graph.regionsOf parent →
      blueprint.firstInitial? key region.name = graph.key? region.initial

namespace Blueprint

variable {κ η : Type} [DecidableEq κ] [StateKey κ] {blueprint : Blueprint κ η}

/-- A blueprint passes the check exactly if it is well-formed. -/
theorem exists_validate_iff :
    (∃ graph, blueprint.validate = .ok graph) ↔ blueprint.IsWellFormed := by
  rw [isWellFormed_iff, ← ConfigurationError.verdict_eq_ok_iff, validate_eq]
  constructor
  · rintro ⟨graph, validated⟩
    exact (map_eq_ok.mp validated).choose_spec.1
  · exact fun accepted => ⟨blueprint.graph, map_eq_ok.mpr ⟨(), accepted, rfl⟩⟩

/-- A graph that passed the check of a blueprint shows what the blueprint says. -/
theorem isChartOf_of_validate
    {graph : Graph κ}
    (validated : blueprint.validate = .ok graph) :
    graph.IsChartOf blueprint := by
  have wellFormed := exists_validate_iff.mp ⟨graph, validated⟩
  have distinct := wellFormed.distinct
  have forest := blueprint.isForest_of_validate validated
  have filled := blueprint.isFilled_of_validate validated
  cases blueprint.eq_graph_of_validate validated
  have declared := isDeclaredBy_graph wellFormed forest
  have exists_declaration {key : κ} {state : Nat}
      (found : blueprint.graph.indexOf? key = some state) :
      ∃ declaration, blueprint.declarations[state]? = some declaration ∧ declaration.id = key :=
    Option.map_eq_some_iff.mp (declared.indexOf?_eq_some_iff.mp found)
  have found_of_placed {declaration : Declaration κ} {state : Nat}
      (placed : blueprint.declarations[state]? = some declaration) :
      blueprint.graph.indexOf? declaration.id = some state :=
    declared.indexOf?_eq_some_iff.mpr (Option.map_eq_some_iff.mpr ⟨declaration, placed, rfl⟩)
  exact
    { forest
      contains_iff := by
        intro key
        rw [Graph.contains_eq_true_iff]
        constructor
        · rintro ⟨state, found⟩
          obtain ⟨declaration, placed, same⟩ := exists_declaration found
          exact ⟨declaration, List.mem_of_getElem? placed, same⟩
        · rintro ⟨declaration, listed, rfl⟩
          obtain ⟨state, placed⟩ := List.mem_iff_getElem?.mp listed
          exact ⟨state, found_of_placed placed⟩
      parent?_eq_some_iff := by
        intro child parent
        constructor
        · intro above
          obtain ⟨state, found, named⟩ := Option.bind_eq_some_iff.mp above
          obtain ⟨declaration, placed, rfl⟩ := exists_declaration found
          rw [declared.parent_eq placed] at named
          exact (isChild_iff distinct (List.mem_of_getElem? placed)).mpr named
        · rintro ⟨_, declaration, listed, rfl, named, _⟩
          obtain ⟨state, placed⟩ := List.mem_iff_getElem?.mp listed
          rw [Graph.parent?, found_of_placed placed, Option.bind_some,
            declared.parent_eq placed, named]
      nodup_names := (isGroupedBy_graph distinct filled forest).nodup_names
      mem_names_iff := by
        intro key parent name found
        obtain ⟨upper, upperPlaced, rfl⟩ := exists_declaration found
        rw [(regionsOf_graph_eq filled parent).1, regionNames_outline distinct upperPlaced,
          mem_regionsBelow_iff]
      mem_children_iff := by
        intro key child parent region found listed
        obtain ⟨upper, upperPlaced, rfl⟩ := exists_declaration found
        rw [Graph.keys, List.mem_filterMap, (regionsOf_graph_eq filled parent).2 region listed]
        simp only [Outline.mem_regionChildren_iff, key?_graph distinct]
        constructor
        · rintro ⟨state, ⟨_, below, label⟩, isKey⟩
          obtain ⟨declaration, placed, rfl⟩ := Option.map_eq_some_iff.mp isKey
          rw [parentOf_outline_eq_some_iff distinct placed upperPlaced] at below
          rw [labelOf_outline distinct placed] at label
          exact (liesIn_iff distinct (List.mem_of_getElem? placed)).mpr ⟨below, label⟩
        · rintro ⟨declaration, listed, rfl, below, label⟩
          obtain ⟨state, placed⟩ := List.mem_iff_getElem?.mp listed
          refine ⟨state, ⟨?_, ?_, ?_⟩, Option.map_eq_some_iff.mpr ⟨declaration, placed, rfl⟩⟩
          · rw [size_outline_eq distinct]
            exact (List.getElem?_eq_some_iff.mp placed).1
          · exact (parentOf_outline_eq_some_iff distinct placed upperPlaced).mpr below
          · rw [labelOf_outline distinct placed, label]
      firstInitial?_eq := by
        intro key parent region found listed
        obtain ⟨upper, upperPlaced, rfl⟩ := exists_declaration found
        obtain ⟨place, isRegion⟩ := List.mem_iff_getElem?.mp listed
        have designated := (blueprint.region_graph filled isRegion).2.2
        have inside := Graph.lt_size_of_parentOf (forest.initial_below isRegion).1
        obtain ⟨initial, isKey⟩ := Graph.exists_key inside
        rw [key?_graph distinct] at isKey ⊢
        obtain ⟨declaration, placed, rfl⟩ := Option.map_eq_some_iff.mp isKey
        rw [isKey]
        exact (initialOf?_outline_eq_some_iff distinct upperPlaced placed _).mp designated }

end Blueprint

/-! ## Two graphs of the same chart -/

namespace Graph.IsChartOf

variable {κ η : Type} [DecidableEq κ] {first second : Graph κ} {blueprint other : Blueprint κ η}

/-- The region of a name has the children that are declared with it. -/
theorem mem_of_mem_regions
    (chart : first.IsChartOf blueprint)
    {key : κ}
    {name : String}
    {children : List κ}
    (listed : (name, children) ∈ first.regions key) :
    children.Nodup ∧ ∀ child, child ∈ children ↔ blueprint.LiesIn child key name := by
  cases found : first.indexOf? key with
  | none => simp [regions, found] at listed
  | some parent =>
      simp only [regions, found, List.mem_map, Prod.mk.injEq] at listed
      obtain ⟨region, isRegion, rfl, rfl⟩ := listed
      exact ⟨chart.forest.nodup_keys (chart.forest.children_nodup isRegion),
        fun child => chart.mem_children_iff found isRegion⟩

/-- The names of the regions of a state are different and those that children are declared
with. -/
theorem nodup_names_regions
    (chart : first.IsChartOf blueprint)
    (key : κ) :
    ((first.regions key).map Prod.fst).Nodup ∧
      ∀ name, name ∈ (first.regions key).map Prod.fst ↔
        first.contains key = true ∧ ∃ child, blueprint.LiesIn child key name := by
  cases found : first.indexOf? key with
  | none => simp [regions, contains, found]
  | some parent =>
      have names_eq : (first.regions key).map Prod.fst =
          (first.regionsOf parent).map Region.name := by
        simp [regions, found, Function.comp_def]
      rw [names_eq]
      refine ⟨chart.nodup_names parent, fun name => ?_⟩
      rw [chart.mem_names_iff found]
      simp [contains, found]

/-- The default leaves of a composite state are those of the children designated for its
regions. -/
theorem defaultLeaves_eq
    (chart : first.IsChartOf blueprint)
    {key : κ}
    (known : first.contains key = true) :
    first.defaultLeaves key =
      if (first.regions key).map Prod.fst = [] then [key]
      else ((first.regions key).map Prod.fst).flatMap fun name =>
        ((blueprint.firstInitial? key name).map first.defaultLeaves).getD [] := by
  obtain ⟨state, found⟩ := contains_eq_true_iff.mp known
  have isKey := chart.forest.indexOf?_eq_some_iff.mp found
  have names_eq : (first.regions key).map Prod.fst =
      (first.regionsOf state).map Region.name := by
    simp [regions, found, Function.comp_def]
  have leaves_of_found {other : κ} {place : Nat} (isPlace : first.indexOf? other = some place) :
      first.defaultLeaves other = first.keys (first.initialLeaves place) := by
    rw [defaultLeaves, isPlace]
  rw [leaves_of_found found, names_eq, chart.forest.initialLeaves_eq]
  cases present : first.regionsOf state with
  | nil => simp [keys, isKey]
  | cons region rest =>
      rw [if_neg (by simp), List.flatMap_map, keys, List.filterMap_flatMap]
      refine List.flatMap_congr fun region listed => ?_
      rw [← present] at listed
      obtain ⟨place, isRegion⟩ := List.mem_iff_getElem?.mp listed
      have inside := lt_size_of_parentOf (chart.forest.initial_below isRegion).1
      obtain ⟨initial, isInitial⟩ := exists_key inside
      rw [chart.firstInitial?_eq found listed, isInitial, Option.map_some, Option.getD_some,
        leaves_of_found (chart.forest.indexOf?_eq_some_iff.mpr isInitial), keys]

/-- A child that is designated for a region of a state lies in that state. -/
theorem exists_below
    (chart : first.IsChartOf blueprint)
    (wellFormed : blueprint.IsWellFormed)
    {key initial : κ}
    {state : Nat}
    {name : String}
    (found : first.indexOf? key = some state)
    (designated : blueprint.firstInitial? key name = some initial) :
    ∃ child, first.parentOf child = some state ∧ first.indexOf? initial = some child := by
  have inRegion := (wellFormed.firstInitial?_eq_some_iff.mp designated).2
  have above := chart.parent?_eq_some_iff.mpr ⟨name, inRegion⟩
  obtain ⟨child, childFound, named⟩ := Option.bind_eq_some_iff.mp above
  obtain ⟨parent, below, isKey⟩ := Option.bind_eq_some_iff.mp named
  rw [chart.forest.key_injective isKey (chart.forest.indexOf?_eq_some_iff.mp found)] at below
  exact ⟨child, below, childFound⟩

section Reordering

variable (chart : first.IsChartOf blueprint) (otherChart : second.IsChartOf other)
  (reordering : blueprint.IsReorderingOf other)

include chart otherChart reordering

theorem contains_eq (key : κ) : first.contains key = second.contains key := by
  rw [Bool.eq_iff_iff, chart.contains_iff, otherChart.contains_iff, reordering.isDeclared_iff]

theorem parent?_eq (key : κ) : first.parent? key = second.parent? key := by
  refine Option.ext fun parent => ?_
  rw [chart.parent?_eq_some_iff, otherChart.parent?_eq_some_iff, reordering.isChild_iff]

/-- The ways up from a key are the same, by induction on the first of them. -/
theorem ancestors_eq (key : κ) : first.ancestors key = second.ancestors key := by
  have sameKnown := contains_eq chart otherChart reordering
  cases found : first.indexOf? key with
  | none =>
      have unknown := contains_eq_false_iff.mpr found
      rw [sameKnown, contains_eq_false_iff] at unknown
      simp only [ancestors, found, unknown]
  | some state =>
      induction state using chart.forest.inductionFromAbove generalizing key with
      | root state isRoot =>
          have known := contains_eq_true_iff.mpr ⟨state, found⟩
          have rootless : first.parent? key = none := by simp [parent?, found, isRoot]
          rw [chart.forest.ancestors_eq known,
            otherChart.forest.ancestors_eq (sameKnown key ▸ known),
            ← parent?_eq chart otherChart reordering, rootless, Option.map_none, Option.map_none]
      | child state parent below inductionHypothesis =>
          have known := contains_eq_true_iff.mpr ⟨state, found⟩
          obtain ⟨parentKey, isKey⟩ := exists_key (chart.forest.parent_lt below)
          have above : first.parent? key = some parentKey := by simp [parent?, found, below, isKey]
          rw [chart.forest.ancestors_eq known,
            otherChart.forest.ancestors_eq (sameKnown key ▸ known),
            ← parent?_eq chart otherChart reordering, above, Option.map_some, Option.map_some,
            inductionHypothesis parentKey (chart.forest.indexOf?_eq_some_iff.mpr isKey)]

theorem regionNames_perm (key : κ) :
    ((first.regions key).map Prod.fst).Perm ((second.regions key).map Prod.fst) := by
  obtain ⟨distinct, mem_iff⟩ := chart.nodup_names_regions key
  obtain ⟨otherDistinct, other_mem_iff⟩ := otherChart.nodup_names_regions key
  refine (List.perm_ext_iff_of_nodup distinct otherDistinct).mpr fun name => ?_
  rw [mem_iff, other_mem_iff, contains_eq chart otherChart reordering]
  simp only [reordering.liesIn_iff]

/-- The descents to the default leaves meet the same states, by induction on the first of
them. -/
theorem defaultLeaves_perm
    (wellFormed : blueprint.IsWellFormed)
    (key : κ) :
    (first.defaultLeaves key).Perm (second.defaultLeaves key) := by
  have sameKnown := contains_eq chart otherChart reordering
  cases found : first.indexOf? key with
  | none =>
      have unknown := contains_eq_false_iff.mpr found
      rw [sameKnown, contains_eq_false_iff] at unknown
      simp only [defaultLeaves, found, unknown, List.Perm.refl]
  | some state =>
      induction state using chart.forest.inductionFromBelow generalizing key with
      | step state inductionHypothesis =>
          have known := contains_eq_true_iff.mpr ⟨state, found⟩
          have sameNames := regionNames_perm chart otherChart reordering key
          rw [chart.defaultLeaves_eq known, otherChart.defaultLeaves_eq (sameKnown key ▸ known)]
          by_cases atomic : (first.regions key).map Prod.fst = []
          · rw [if_pos atomic, if_pos (List.nil_perm.mp (atomic ▸ sameNames))]
          · have composite : (second.regions key).map Prod.fst ≠ [] := by
              intro empty
              rw [empty, List.perm_nil] at sameNames
              exact atomic sameNames
            rw [if_neg atomic, if_neg composite]
            refine sameNames.flatMap fun name _ => ?_
            rw [← reordering.firstInitial?_eq wellFormed]
            cases designated : blueprint.firstInitial? key name with
            | none => exact .refl _
            | some initial =>
                obtain ⟨child, below, childFound⟩ := chart.exists_below wellFormed found designated
                exact inductionHypothesis child below initial childFound

/-- Graphs of blueprints that differ in the order of their calls have the same hierarchy. -/
theorem sharesHierarchy (wellFormed : blueprint.IsWellFormed) : first.SharesHierarchy second where
  contains_eq := contains_eq chart otherChart reordering
  parent?_eq := parent?_eq chart otherChart reordering
  ancestors_eq := ancestors_eq chart otherChart reordering
  isDescendant_eq below above := by
    rw [Bool.eq_iff_iff, chart.forest.isDescendant_iff, otherChart.forest.isDescendant_iff,
      ancestors_eq chart otherChart reordering]
  lca?_eq left right := by
    refine Option.ext fun common => ?_
    simp only [chart.forest.lca?_eq_some_iff, otherChart.forest.lca?_eq_some_iff,
      ancestors_eq chart otherChart reordering]
  regionNames_perm := regionNames_perm chart otherChart reordering
  children_perm := by
    intro key name children others listed otherListed
    obtain ⟨distinct, mem_iff⟩ := chart.mem_of_mem_regions listed
    obtain ⟨otherDistinct, other_mem_iff⟩ := otherChart.mem_of_mem_regions otherListed
    refine (List.perm_ext_iff_of_nodup distinct otherDistinct).mpr fun child => ?_
    rw [mem_iff, other_mem_iff, reordering.liesIn_iff]
  defaultLeaves_perm := defaultLeaves_perm chart otherChart reordering wellFormed
  rootKeys_perm := by
    refine (List.perm_ext_iff_of_nodup (chart.forest.nodup_keys chart.forest.roots_nodup)
      (otherChart.forest.nodup_keys otherChart.forest.roots_nodup)).mpr fun key => ?_
    rw [← rootKeys, ← rootKeys, chart.forest.mem_rootKeys_iff, otherChart.forest.mem_rootKeys_iff,
      contains_eq chart otherChart reordering, parent?_eq chart otherChart reordering]

end Reordering

end Graph.IsChartOf

namespace Blueprint

variable {κ η : Type} [DecidableEq κ] [StateKey κ]

omit [DecidableEq κ] [StateKey κ] in
/-- Blueprints of the same calls in different orders say the same. -/
theorem isReorderingOf_ofCalls
    {calls others : List (BlueprintCall κ η)}
    (declared : (calls.filterMap BlueprintCall.declaration?).Perm
      (others.filterMap BlueprintCall.declaration?))
    (designated : (calls.filterMap BlueprintCall.initial?).Perm
      (others.filterMap BlueprintCall.initial?))
    (attached : ∀ state, (ofCalls calls).IsAttachedTo state ↔ (ofCalls others).IsAttachedTo state) :
    (ofCalls calls).IsReorderingOf (ofCalls others) where
  declarations_perm := by simpa only [ofCalls_eq] using declared
  initials_perm := by simpa only [ofCalls_eq] using designated
  isAttachedTo_iff := attached

/-- The order of the calls that describe a chart decides neither whether it is accepted nor
which hierarchy it has. -/
theorem sharesHierarchy_of_perm
    {calls others : List (BlueprintCall κ η)}
    (declared : (calls.filterMap BlueprintCall.declaration?).Perm
      (others.filterMap BlueprintCall.declaration?))
    (designated : (calls.filterMap BlueprintCall.initial?).Perm
      (others.filterMap BlueprintCall.initial?))
    (attached : ∀ state, (ofCalls calls).IsAttachedTo state ↔ (ofCalls others).IsAttachedTo state) :
    ((∃ graph, (ofCalls calls).validate = .ok graph) ↔
        ∃ graph, (ofCalls others).validate = .ok graph) ∧
      ∀ {graph other : Graph κ}, (ofCalls calls).validate = .ok graph →
        (ofCalls others).validate = .ok other → graph.SharesHierarchy other := by
  have reordering := isReorderingOf_ofCalls declared designated attached
  constructor
  · rw [exists_validate_iff, exists_validate_iff]
    exact reordering.isWellFormed_iff
  · intro graph other validated otherValidated
    have wellFormed := exists_validate_iff.mp ⟨graph, validated⟩
    exact (isChartOf_of_validate validated).sharesHierarchy
      (isChartOf_of_validate otherValidated) reordering wellFormed

/-- A composite state with two regions, one of them with another composite state, beside a
state of its own. -/
def lampCalls : List (BlueprintCall String Unit) :=
  [.addState "off" none none,
    .addState "on" none none,
    .addState "red" (some "on") (some "light"),
    .addState "green" (some "on") (some "light"),
    .addState "mute" (some "on") (some "sound"),
    .addState "bright" (some "red") none,
    .setInitial "on" "red",
    .setInitial "on" "mute",
    .setInitial "red" "bright"]

/-- The calls that describe a lamp lead to the same hierarchy from last to first, with the
initial children before the states and the children before their parents. -/
theorem sharesHierarchy_of_perm_reversed :
    (ofCalls lampCalls).graph.SharesHierarchy (ofCalls lampCalls.reverse).graph ∧
      (ofCalls lampCalls).graph.rootKeys = ["off", "on"] ∧
      (ofCalls lampCalls.reverse).graph.rootKeys = ["on", "off"] := by
  have reversed := lampCalls.reverse_perm.symm
  have sameHierarchy := sharesHierarchy_of_perm (reversed.filterMap BlueprintCall.declaration?)
    (reversed.filterMap BlueprintCall.initial?)
    (fun state => by simp [IsAttachedTo, ofCalls_eq, lampCalls, BlueprintCall.entry?,
      BlueprintCall.exit?])
  exact ⟨sameHierarchy.2 (by cbv) (by cbv), by cbv, by cbv⟩

end Blueprint
end Statechart
