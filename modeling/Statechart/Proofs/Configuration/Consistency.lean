import Statechart.Machine.Execution
import Statechart.Proofs.Graph.Ancestry

/-!
# Consistent configurations

A configuration is consistent if every active state has an active parent and no region
has two active children. A sound step leaves a state without active children or enters
a state below an active parent into an empty region. Sound steps keep a configuration
consistent, and so do all beginnings of a sound run of steps.
-/

namespace Statechart

variable {κ : Type} {graph : Graph κ} {configuration : Configuration}

namespace Configuration

/-- The parent of every active state is active, and no region of any state has two
active children. -/
structure IsConsistent (graph : Graph κ) (configuration : Configuration) : Prop where
  /-- There is a flag for every state. -/
  flags_size : configuration.flags.size = graph.size
  /-- The parent of an active state is active. -/
  parent_active {state parent : Nat} :
    configuration.isActive state = true → graph.parentOf state = some parent →
      configuration.isActive parent = true
  /-- Two active children of one region are the same. -/
  child_unique {state first second : Nat} {region : Region} :
    region ∈ graph.regionsOf state → first ∈ region.children → second ∈ region.children →
      configuration.isActive first = true → configuration.isActive second = true →
        first = second

/-- Every root is active, and every active state has exactly one active child in each of
its regions. -/
structure IsComplete (graph : Graph κ) (configuration : Configuration) : Prop where
  /-- Every root is active. -/
  root_active {root : Nat} : root ∈ graph.roots → configuration.isActive root = true
  /-- Every region of an active state has exactly one active child. -/
  region_filled {state : Nat} {region : Region} :
    configuration.isActive state = true → region ∈ graph.regionsOf state →
      ∃! child, child ∈ region.children ∧ configuration.isActive child = true

/-- Only states of the graph are active. -/
theorem lt_size_of_isActive
    {state : Nat}
    (active : configuration.isActive state = true) :
    state < configuration.flags.size := by
  by_contra outside
  have absent : configuration.flags[state]? = none :=
    Array.getElem?_eq_none (Nat.le_of_not_lt outside)
  simp [isActive, absent] at active

namespace IsConsistent

variable (consistent : configuration.IsConsistent graph)

include consistent

theorem lt_size
    {state : Nat}
    (active : configuration.isActive state = true) :
    state < graph.size := by
  rw [← consistent.flags_size]
  exact lt_size_of_isActive active

/-- Everything above an active state is active. -/
theorem active_of_within
    (forest : graph.IsForest)
    {state above : Nat}
    (active : configuration.isActive state = true)
    (within : graph.Within state above) :
    configuration.isActive above = true := by
  induction state using forest.inductionFromAbove with
  | root state isRoot =>
      rw [forest.eq_of_within_root isRoot within]
      exact active
  | child state parent below inductionHypothesis =>
      rcases forest.within_iff.mp within with rfl | ⟨other, otherBelow, within⟩
      · exact active
      · rw [below] at otherBelow
        cases otherBelow
        exact inductionHypothesis (consistent.parent_active active below) within

/-- Two active children of one state that refer to the same region are the same. -/
theorem eq_of_sameRegion
    (forest : graph.IsForest)
    {first second parent : Nat}
    (firstBelow : graph.parentOf first = some parent)
    (secondBelow : graph.parentOf second = some parent)
    (sameRegion : graph.regionOf first = graph.regionOf second)
    (firstActive : configuration.isActive first = true)
    (secondActive : configuration.isActive second = true) :
    first = second := by
  obtain ⟨region, found, firstListed⟩ := forest.exists_region firstBelow
  have secondListed : second ∈ region.children :=
    (forest.mem_children_iff found).mpr ⟨secondBelow, sameRegion.symm⟩
  exact consistent.child_unique (List.mem_of_getElem? found) firstListed secondListed
    firstActive secondActive

/-- The search for the active child of a region finds it. -/
theorem activeIn?_eq_some_iff
    {state child : Nat}
    {region : Region}
    (member : region ∈ graph.regionsOf state) :
    configuration.activeIn? region = some child ↔
      child ∈ region.children ∧ configuration.isActive child = true := by
  constructor
  · intro found
    exact ⟨List.mem_of_find?_eq_some found, List.find?_some found⟩
  · rintro ⟨listed, active⟩
    have isSome : (configuration.activeIn? region).isSome :=
      List.find?_isSome.mpr ⟨child, listed, active⟩
    obtain ⟨found, found_eq⟩ := Option.isSome_iff_exists.mp isSome
    rw [consistent.child_unique member listed (List.mem_of_find?_eq_some found_eq) active
      (List.find?_some found_eq)]
    exact found_eq

end IsConsistent

/-- Consistency in terms of the regions that children refer to. -/
theorem isConsistent_of_sameRegion
    (forest : graph.IsForest)
    (flags_size : configuration.flags.size = graph.size)
    (parent_active : ∀ state parent, configuration.isActive state = true →
      graph.parentOf state = some parent → configuration.isActive parent = true)
    (unique : ∀ first second parent, graph.parentOf first = some parent →
      graph.parentOf second = some parent → graph.regionOf first = graph.regionOf second →
        configuration.isActive first = true → configuration.isActive second = true →
          first = second) :
    configuration.IsConsistent graph where
  flags_size := flags_size
  parent_active := parent_active _ _
  child_unique := by
    intro state first second region member firstListed secondListed
    obtain ⟨index, found⟩ := List.mem_iff_getElem?.mp member
    obtain ⟨firstBelow, firstRegion⟩ := (forest.mem_children_iff found).mp firstListed
    obtain ⟨secondBelow, secondRegion⟩ := (forest.mem_children_iff found).mp secondListed
    exact unique first second state firstBelow secondBelow
      (firstRegion.trans secondRegion.symm)

/-- The configuration without active states is consistent. -/
theorem isConsistent_empty (graph : Graph κ) : (empty graph.size).IsConsistent graph where
  flags_size := by simp [empty]
  parent_active := by simp
  child_unique := by simp

end Configuration

/-! ## Steps -/

namespace Step

/-- When a step may be taken. A state is left when it is active and none of its children
is. A state is entered when it is inactive, its parent is active, and its region is
empty. -/
def IsSound (graph : Graph κ) (configuration : Configuration) : Step → Prop
  | .exit state =>
      configuration.isActive state = true ∧
        ∀ child, graph.parentOf child = some state → configuration.isActive child = false
  | .act _ => True
  | .enter state =>
      state < graph.size ∧ configuration.isActive state = false ∧
        ∀ parent, graph.parentOf state = some parent →
          configuration.isActive parent = true ∧
            ∀ sibling, graph.parentOf sibling = some parent →
              graph.regionOf sibling = graph.regionOf state →
                configuration.isActive sibling = false

@[simp] theorem flags_size_apply (configuration : Configuration) (step : Step) :
    (step.apply configuration).flags.size = configuration.flags.size := by
  cases step <;> simp [apply, Configuration.activate, Configuration.deactivate]

/-- A sound step keeps a configuration consistent. -/
theorem IsSound.isConsistent
    {step : Step}
    (sound : step.IsSound graph configuration)
    (forest : graph.IsForest)
    (consistent : configuration.IsConsistent graph) :
    (step.apply configuration).IsConsistent graph := by
  have flags_size : (step.apply configuration).flags.size = graph.size := by
    rw [flags_size_apply, consistent.flags_size]
  cases step with
  | exit state =>
      obtain ⟨_, childless⟩ := sound
      refine Configuration.isConsistent_of_sameRegion forest flags_size ?_ ?_
      · intro other parent active below
        simp only [apply, Configuration.isActive_deactivate] at active ⊢
        split at active
        · contradiction
        · rename_i different
          have stays : ¬ state = parent := by
            rintro rfl
            rw [childless other below] at active
            contradiction
          rw [if_neg stays]
          exact consistent.parent_active active below
      · intro first second parent firstBelow secondBelow sameRegion firstActive secondActive
        simp only [apply, Configuration.isActive_deactivate] at firstActive secondActive
        split at firstActive
        · contradiction
        · split at secondActive
          · contradiction
          · exact consistent.eq_of_sameRegion forest firstBelow secondBelow sameRegion
              firstActive secondActive
  | act position => exact consistent
  | enter state =>
      obtain ⟨inside, inactive, below_active⟩ := sound
      refine Configuration.isConsistent_of_sameRegion forest flags_size ?_ ?_
      · intro other parent active below
        simp only [apply, Configuration.isActive_activate] at active ⊢
        split
        · rfl
        · split at active
          · rename_i entered
            rw [entered.1] at below_active
            exact (below_active parent below).1
          · exact consistent.parent_active active below
      · intro first second parent firstBelow secondBelow sameRegion firstActive secondActive
        simp only [apply, Configuration.isActive_activate] at firstActive secondActive
        split at firstActive
        · rename_i firstEntered
          rw [firstEntered.1] at below_active
          split at secondActive
          · rename_i secondEntered
            exact firstEntered.1.symm.trans secondEntered.1
          · rw [(below_active parent firstBelow).2 second secondBelow sameRegion.symm]
              at secondActive
            contradiction
        · split at secondActive
          · rename_i secondEntered
            rw [secondEntered.1] at below_active
            rw [(below_active parent secondBelow).2 first firstBelow sameRegion]
              at firstActive
            contradiction
          · exact consistent.eq_of_sameRegion forest firstBelow secondBelow sameRegion
              firstActive secondActive

end Step

namespace Configuration

/-- The configuration after some steps have been completed. -/
def after (configuration : Configuration) (steps : List Step) : Configuration :=
  steps.foldl Step.apply configuration

@[simp] theorem after_nil (configuration : Configuration) :
    configuration.after [] = configuration := rfl

@[simp] theorem after_cons (configuration : Configuration) (step : Step) (steps : List Step) :
    configuration.after (step :: steps) = (step.apply configuration).after steps := rfl

theorem after_append (configuration : Configuration) (first second : List Step) :
    configuration.after (first ++ second) = (configuration.after first).after second :=
  List.foldl_append

@[simp] theorem flags_size_after (configuration : Configuration) (steps : List Step) :
    (configuration.after steps).flags.size = configuration.flags.size := by
  induction steps generalizing configuration with
  | nil => rfl
  | cons step steps inductionHypothesis => simp [inductionHypothesis]

/-- After leaving some states the others are as they were. -/
theorem isActive_after_exits (configuration : Configuration) (states : List Nat)
    (other : Nat) :
    (configuration.after (states.map .exit)).isActive other =
      if other ∈ states then false else configuration.isActive other := by
  induction states generalizing configuration with
  | nil => simp
  | cons state states inductionHypothesis =>
      rw [List.map_cons, after_cons, inductionHypothesis, Step.apply, isActive_deactivate]
      by_cases later : other ∈ states
      · simp [later]
      · by_cases same : state = other
        · simp [same]
        · simp [later, same, Ne.symm same]

/-- Running actions leaves all states as they were. -/
theorem after_acts (configuration : Configuration) (positions : List Nat) :
    configuration.after (positions.map .act) = configuration := by
  induction positions with
  | nil => rfl
  | cons position positions inductionHypothesis => exact inductionHypothesis

/-- After entering some states they are active and the others are as they were. -/
theorem isActive_after_enters
    {states : List Nat}
    (inside : ∀ state ∈ states, state < configuration.flags.size)
    (other : Nat) :
    (configuration.after (states.map .enter)).isActive other =
      if other ∈ states then true else configuration.isActive other := by
  induction states generalizing configuration with
  | nil => simp
  | cons state states inductionHypothesis =>
      have stateInside := inside state List.mem_cons_self
      rw [List.map_cons, after_cons, inductionHypothesis, Step.apply, isActive_activate]
      · by_cases later : other ∈ states
        · simp [later]
        · by_cases same : state = other
          · subst same
            simp [stateInside]
          · simp [later, same, Ne.symm same]
      · intro later member
        rw [Step.flags_size_apply]
        exact inside later (List.mem_cons_of_mem _ member)

end Configuration

/-- Every step of a run is sound after the steps before it. -/
def SoundSteps (graph : Graph κ) : Configuration → List Step → Prop
  | _, [] => True
  | configuration, step :: steps =>
      step.IsSound graph configuration ∧ SoundSteps graph (step.apply configuration) steps

namespace SoundSteps

/-- A run is sound if its first part is and its second part is sound after the first. -/
theorem append
    {first second : List Step}
    (firstSound : SoundSteps graph configuration first)
    (secondSound : SoundSteps graph (configuration.after first) second) :
    SoundSteps graph configuration (first ++ second) := by
  induction first generalizing configuration with
  | nil => exact secondSound
  | cons step first inductionHypothesis =>
      exact ⟨firstSound.1, inductionHypothesis firstSound.2 secondSound⟩

/-- The beginning of a sound run is sound. -/
theorem beginning
    {earlier steps : List Step}
    (sound : SoundSteps graph configuration steps)
    (isPrefix : earlier <+: steps) :
    SoundSteps graph configuration earlier := by
  induction earlier generalizing configuration steps with
  | nil => trivial
  | cons step earlier inductionHypothesis =>
      obtain ⟨later, rfl⟩ := isPrefix
      exact ⟨sound.1, inductionHypothesis sound.2 (List.prefix_append earlier later)⟩

/-- After the beginning of a sound run the rest is sound. -/
theorem rest
    {first second : List Step}
    (sound : SoundSteps graph configuration (first ++ second)) :
    SoundSteps graph (configuration.after first) second := by
  induction first generalizing configuration with
  | nil => exact sound
  | cons step first inductionHypothesis => exact inductionHypothesis sound.2

/-- Running actions is always sound. -/
theorem acts (graph : Graph κ) (configuration : Configuration) (positions : List Nat) :
    SoundSteps graph configuration (positions.map .act) := by
  induction positions with
  | nil => trivial
  | cons position positions inductionHypothesis => exact ⟨trivial, inductionHypothesis⟩

/-- A sound run keeps a configuration consistent, however far it comes. -/
theorem isConsistent
    {earlier steps : List Step}
    (sound : SoundSteps graph configuration steps)
    (forest : graph.IsForest)
    (consistent : configuration.IsConsistent graph)
    (beginning : earlier <+: steps) :
    (configuration.after earlier).IsConsistent graph := by
  induction earlier generalizing configuration steps with
  | nil => exact consistent
  | cons step earlier inductionHypothesis =>
      obtain ⟨later, rfl⟩ := beginning
      exact inductionHypothesis sound.2 (sound.1.isConsistent forest consistent)
        (List.prefix_append earlier later)

/-- Leaving states is sound if they are active, are left after their active children, and
are listed once. -/
theorem exits
    {states : List Nat}
    (forest : graph.IsForest)
    (distinct : states.Nodup)
    (active : ∀ state ∈ states, configuration.isActive state = true)
    (closed : ∀ state ∈ states, ∀ child, graph.parentOf child = some state →
      configuration.isActive child = true → child ∈ states)
    (ordered : states.Pairwise fun earlier later => graph.parentOf later ≠ some earlier) :
    SoundSteps graph configuration (states.map .exit) := by
  induction states generalizing configuration with
  | nil => trivial
  | cons state states inductionHypothesis =>
      obtain ⟨new, distinct⟩ := List.nodup_cons.mp distinct
      obtain ⟨first, ordered⟩ := List.pairwise_cons.mp ordered
      have isActive_rest (other : Nat) :
          ((Step.exit state).apply configuration).isActive other =
            if state = other then false else configuration.isActive other := by
        rw [Step.apply, Configuration.isActive_deactivate]
      constructor
      · refine ⟨active state List.mem_cons_self, ?_⟩
        intro child below
        by_contra childActive
        rcases List.mem_cons.mp (closed state List.mem_cons_self child below
          (eq_true_of_ne_false childActive)) with equal | later
        · exact forest.ne_parent below equal
        · exact first child later below
      · refine inductionHypothesis distinct ?_ ?_ ordered
        · intro other member
          have different : state ≠ other := fun equal => new (equal ▸ member)
          rw [isActive_rest, if_neg different]
          exact active other (List.mem_cons_of_mem _ member)
        · intro other member child below childActive
          rw [isActive_rest] at childActive
          split at childActive
          · contradiction
          · rename_i different
            rcases List.mem_cons.mp (closed other (List.mem_cons_of_mem _ member) child
              below childActive) with equal | listed
            · exact absurd equal.symm different
            · exact listed

/-- Entering states is sound if they are inactive, are entered after their parents unless
those are active, and are the only ones in their regions. -/
theorem enters
    {states : List Nat}
    (distinct : states.Nodup)
    (inside : ∀ state ∈ states, state < configuration.flags.size ∧ state < graph.size)
    (inactive : ∀ state ∈ states, configuration.isActive state = false)
    (supported : ∀ state ∈ states, ∀ parent, graph.parentOf state = some parent →
      parent ∈ states ∨ configuration.isActive parent = true)
    (ordered : states.Pairwise fun earlier later => graph.parentOf earlier ≠ some later)
    (vacant : ∀ state ∈ states, ∀ sibling parent, graph.parentOf state = some parent →
      graph.parentOf sibling = some parent → graph.regionOf sibling = graph.regionOf state →
        configuration.isActive sibling = false)
    (alone : ∀ first ∈ states, ∀ second ∈ states, ∀ parent,
      graph.parentOf first = some parent → graph.parentOf second = some parent →
        graph.regionOf first = graph.regionOf second → first = second)
    (forest : graph.IsForest) :
    SoundSteps graph configuration (states.map .enter) := by
  induction states generalizing configuration with
  | nil => trivial
  | cons state states inductionHypothesis =>
      obtain ⟨new, distinct⟩ := List.nodup_cons.mp distinct
      obtain ⟨first, ordered⟩ := List.pairwise_cons.mp ordered
      have stateInside := inside state List.mem_cons_self
      have isActive_rest (other : Nat) :
          ((Step.enter state).apply configuration).isActive other =
            if state = other then true else configuration.isActive other := by
        rw [Step.apply, Configuration.isActive_activate]
        by_cases same : state = other
        · simp [← same, stateInside.1]
        · simp [same]
      have different {other : Nat} (member : other ∈ states) : state ≠ other :=
        fun equal => new (equal ▸ member)
      constructor
      · refine ⟨stateInside.2, inactive state List.mem_cons_self, ?_⟩
        intro parent below
        refine ⟨?_, fun sibling siblingBelow sameRegion =>
          vacant state List.mem_cons_self sibling parent below siblingBelow sameRegion⟩
        rcases supported state List.mem_cons_self parent below with listed | parentActive
        · rcases List.mem_cons.mp listed with equal | later
          · exact absurd equal.symm (forest.ne_parent below)
          · exact absurd below (first parent later)
        · exact parentActive
      · refine inductionHypothesis distinct ?_ ?_ ?_ ordered ?_ ?_
        · intro other member
          rw [Step.flags_size_apply]
          exact inside other (List.mem_cons_of_mem _ member)
        · intro other member
          rw [isActive_rest, if_neg (different member)]
          exact inactive other (List.mem_cons_of_mem _ member)
        · intro other member parent below
          rcases supported other (List.mem_cons_of_mem _ member) parent below with
            listed | parentActive
          · rcases List.mem_cons.mp listed with equal | later
            · right
              rw [isActive_rest, if_pos equal.symm]
            · exact .inl later
          · right
            rw [isActive_rest, parentActive, ite_self]
        · intro other member sibling parent below siblingBelow sameRegion
          rw [isActive_rest]
          split
          · rename_i equal
            subst equal
            exact absurd (alone state List.mem_cons_self other
              (List.mem_cons_of_mem _ member) parent siblingBelow below sameRegion)
              (different member)
          · exact vacant other (List.mem_cons_of_mem _ member) sibling parent below
              siblingBelow sameRegion
        · intro one oneMember other otherMember
          exact alone one (List.mem_cons_of_mem _ oneMember) other
            (List.mem_cons_of_mem _ otherMember)

end SoundSteps
end Statechart
