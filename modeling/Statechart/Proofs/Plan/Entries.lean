import Statechart.Proofs.Plan.Exits

/-!
# The states that a plan enters

On the way to a target a plan chooses one child for every region of every state that it
enters: the child toward the target if the region holds it, and the initial child
otherwise. It enters exactly the states that are reached through chosen children, each
of them once and after its parent.
-/

namespace Statechart

variable {κ : Type} {graph : Graph κ}

namespace Graph

/-- The child that becomes active in a region of an entered state: the child toward the
target if the region holds it, and the initial child otherwise. -/
def chosenIn? (graph : Graph κ) (target state index : Nat) : Option Nat :=
  match graph.childToward? state target with
  | none => (graph.regionsOf state)[index]?.map Region.initial
  | some child =>
      if graph.regionOf child = index then some child
      else (graph.regionsOf state)[index]?.map Region.initial

/-- A state that has a parent is the chosen child of its region. -/
def IsChosen (graph : Graph κ) (target child : Nat) : Prop :=
  ∀ parent, graph.parentOf child = some parent →
    graph.chosenIn? target parent (graph.regionOf child) = some child

/-- The chosen child of a region lies in that region. -/
theorem chosenIn?_below
    (forest : graph.IsForest)
    {target state index child : Nat}
    (chosen : graph.chosenIn? target state index = some child) :
    graph.parentOf child = some state ∧ graph.regionOf child = index := by
  have byDefault (found : (graph.regionsOf state)[index]?.map Region.initial = some child) :
      graph.parentOf child = some state ∧ graph.regionOf child = index := by
    obtain ⟨region, place, rfl⟩ := Option.map_eq_some_iff.mp found
    exact forest.initial_below place
  unfold chosenIn? at chosen
  split at chosen
  · exact byDefault chosen
  · rename_i toward found
    split at chosen
    · rename_i inRegion
      cases chosen
      exact ⟨(forest.childToward?_eq_some_iff.mp found).1, inRegion⟩
    · exact byDefault chosen

/-- In every region a child is chosen. -/
theorem exists_chosenIn
    {state index : Nat}
    (inRange : index < (graph.regionsOf state).length)
    (target : Nat) :
    ∃ child, graph.chosenIn? target state index = some child := by
  have byDefault : (graph.regionsOf state)[index]?.map Region.initial =
      some (graph.regionsOf state)[index].initial := by
    rw [List.getElem?_eq_getElem inRange, Option.map_some]
  unfold chosenIn?
  rw [byDefault]
  split
  · exact ⟨_, rfl⟩
  · split
    · exact ⟨_, rfl⟩
    · exact ⟨_, rfl⟩

/-- The child toward the target is chosen. -/
theorem chosenIn?_of_within
    (forest : graph.IsForest)
    {target state child : Nat}
    (below : graph.parentOf child = some state)
    (within : graph.Within target child) :
    graph.chosenIn? target state (graph.regionOf child) = some child := by
  rw [chosenIn?, forest.childToward?_eq_some_iff.mpr ⟨below, within⟩]
  exact if_pos rfl

/-- Without the target in a region its initial child is chosen. -/
theorem chosenIn?_of_not_within
    (forest : graph.IsForest)
    {target state index : Nat}
    (elsewhere : ∀ child, graph.parentOf child = some state →
      graph.regionOf child = index → ¬ graph.Within target child) :
    graph.chosenIn? target state index =
      (graph.regionsOf state)[index]?.map Region.initial := by
  unfold chosenIn?
  split
  · rfl
  · rename_i toward found
    obtain ⟨below, within⟩ := forest.childToward?_eq_some_iff.mp found
    exact if_neg fun inRegion => elsewhere toward below inRegion within

theorem isChosen_of_within
    (forest : graph.IsForest)
    {target child : Nat}
    (within : graph.Within target child) :
    graph.IsChosen target child :=
  fun _ below => chosenIn?_of_within forest below within

/-- Two chosen children of one region are the same. -/
theorem IsChosen.eq_of_sameRegion
    {target first second parent : Nat}
    (firstChosen : graph.IsChosen target first)
    (secondChosen : graph.IsChosen target second)
    (firstBelow : graph.parentOf first = some parent)
    (secondBelow : graph.parentOf second = some parent)
    (sameRegion : graph.regionOf first = graph.regionOf second) :
    first = second := by
  have firstFound := firstChosen parent firstBelow
  rw [sameRegion, secondChosen parent secondBelow] at firstFound
  exact (Option.some.inj firstFound).symm

end Graph

namespace Plan

open Statechart.Graph

/-! ## Ways down -/

/-- There is nothing on the way from a state to itself. -/
theorem pathBelow_self (forest : graph.IsForest) (state : Nat) :
    pathBelow graph (some state) state = [] := by
  unfold pathBelow
  cases below : graph.parentOf state with
  | none => simp [forest.chain_of_root below]
  | some parent => simp [forest.chain_of_parent below]

/-- The way down to a child ends with that child. -/
theorem pathBelow_of_parent
    (forest : graph.IsForest)
    {above target parent : Nat}
    (below : graph.parentOf target = some parent)
    (within : graph.Within parent above) :
    pathBelow graph (some above) target = pathBelow graph (some above) parent ++ [target] := by
  have different : target ≠ above := by
    rintro rfl
    exact forest.not_within_child below within
  unfold pathBelow
  rw [forest.chain_of_parent below, List.takeWhile_cons_of_pos (by simpa using different),
    List.reverse_cons]

/-- The way down to what lies below a branch begins with that branch. -/
theorem pathBelow_of_branch
    (forest : graph.IsForest)
    {above target branch : Nat}
    (branchBelow : graph.parentOf branch = some above)
    (within : graph.Within target branch) :
    pathBelow graph (some above) target = branch :: pathBelow graph (some branch) target := by
  induction target using forest.inductionFromAbove with
  | root state isRoot =>
      rw [← forest.eq_of_within_root isRoot within, branchBelow] at isRoot
      contradiction
  | child state parent below inductionHypothesis =>
      by_cases equal : state = branch
      · subst equal
        rw [below] at branchBelow
        cases branchBelow
        rw [pathBelow_of_parent forest below (forest.within_refl _),
          pathBelow_self forest, pathBelow_self forest, List.nil_append]
      · have parentWithin := forest.parent_within_of_ne within equal below
        have parentAbove := forest.within_trans parentWithin (forest.within_parent branchBelow)
        rw [pathBelow_of_parent forest below parentAbove, inductionHypothesis parentWithin,
          pathBelow_of_parent forest below parentWithin, List.cons_append]

/-- The way down from nowhere begins with the root. -/
theorem pathBelow_none (forest : graph.IsForest) (target : Nat) :
    pathBelow graph none target =
      graph.rootOf target :: pathBelow graph (some (graph.rootOf target)) target := by
  induction target using forest.inductionFromAbove with
  | root state isRoot =>
      rw [forest.rootOf_of_root isRoot, pathBelow_self forest]
      simp [pathBelow, forest.chain_of_root isRoot]
  | child state parent below inductionHypothesis =>
      have sameRoot := forest.rootOf_eq_of_within (forest.within_parent below)
      have snoc : pathBelow graph none state = pathBelow graph none parent ++ [state] := by
        unfold pathBelow
        rw [forest.chain_of_parent below, List.takeWhile_cons_of_pos (by simp),
          List.reverse_cons]
      rw [snoc, inductionHypothesis, sameRoot,
        pathBelow_of_parent forest below (forest.within_rootOf parent), List.cons_append]

/-- A list of states that leads down from a state, one child after the other. -/
def LeadsDown (graph : Graph κ) : Nat → List Nat → Prop
  | _, [] => True
  | state, next :: rest => graph.parentOf next = some state ∧ LeadsDown graph next rest

/-- The way down to a target leads down. -/
theorem leadsDown_pathBelow
    (forest : graph.IsForest)
    {state target : Nat}
    (within : graph.Within target state) :
    LeadsDown graph state (pathBelow graph (some state) target) := by
  induction state using forest.inductionFromBelow with
  | step state inductionHypothesis =>
      by_cases equal : target = state
      · rw [equal, pathBelow_self forest]
        trivial
      · obtain ⟨branch, below, branchWithin⟩ := forest.exists_branch within equal
        rw [pathBelow_of_branch forest below branchWithin]
        exact ⟨below, inductionHypothesis branch below branchWithin⟩

/-! ## The bound of the descent does not matter -/

theorem entriesWithin_succ (bound state : Nat) (path : List Nat) :
    entriesWithin graph (bound + 1) state path =
      state :: (graph.regionsOf state).zipIdx.flatMap fun (region, index) =>
        match path with
        | [] => entriesWithin graph bound region.initial []
        | next :: rest =>
            if graph.regionOf next = index then entriesWithin graph bound next rest
            else entriesWithin graph bound region.initial [] := rfl

/-- A descent that may reach the bottom does not change with a larger bound. -/
theorem entriesWithin_succ_eq
    (forest : graph.IsForest)
    {bound state : Nat}
    {path : List Nat}
    (enough : graph.size < bound + (graph.chain state).length)
    (leads : LeadsDown graph state path) :
    entriesWithin graph (bound + 1) state path = entriesWithin graph bound state path := by
  induction bound generalizing state path with
  | zero =>
      have bounded : (graph.chain state).length ≤ graph.size :=
        Graph.length_chainWithin_le graph graph.size state
      omega
  | succ bound inductionHypothesis =>
      rw [entriesWithin_succ, entriesWithin_succ bound]
      congr 1
      refine List.flatMap_congr fun place member => ?_
      obtain ⟨region, index⟩ := place
      have found := List.mk_mem_zipIdx_iff_getElem?.mp member
      have length := forest.length_chain_of_parent (forest.initial_below found).1
      have byDefault : entriesWithin graph (bound + 1) region.initial [] =
          entriesWithin graph bound region.initial [] :=
        inductionHypothesis (by omega) trivial
      cases path with
      | nil => exact byDefault
      | cons next rest =>
          have nextLength := forest.length_chain_of_parent leads.1
          simp only
          rw [byDefault, inductionHypothesis (by omega) leads.2]

/-- What is entered with a state: the state, and what is entered in each of its
regions. -/
theorem entriesAlong_eq
    (forest : graph.IsForest)
    {state : Nat}
    {path : List Nat}
    (leads : LeadsDown graph state path) :
    entriesAlong graph state path =
      state :: (List.range (graph.regionsOf state).length).flatMap fun index =>
        entriesIn graph state index path := by
  obtain ⟨bound, size_eq⟩ := Nat.exists_eq_succ_of_ne_zero (Nat.ne_of_gt forest.nonempty)
  have positive := List.length_pos_of_mem (forest.within_refl state)
  rw [entriesAlong, size_eq, entriesWithin_succ]
  congr 1
  let visit (place : Option (Region × Nat)) : List Nat :=
    match place with
    | none => []
    | some (_, index) => entriesIn graph state index path
  have byPlaces : (List.range (graph.regionsOf state).length).flatMap
      (fun index => entriesIn graph state index path) =
        (graph.regionsOf state).zipIdx.flatMap fun place => visit (some place) := by
    rw [← flatMap_range_getElem?, List.length_zipIdx]
    refine List.flatMap_congr fun index member => ?_
    have inRange := List.mem_range.mp member
    have found : (graph.regionsOf state).zipIdx[index]? =
        some ((graph.regionsOf state)[index], index) := by
      rw [List.getElem?_zipIdx, List.getElem?_eq_getElem inRange]
      simp
    rw [found]
  rw [byPlaces]
  refine List.flatMap_congr ?_
  rintro ⟨region, index⟩ member
  have found := List.mk_mem_zipIdx_iff_getElem?.mp member
  have length := forest.length_chain_of_parent (forest.initial_below found).1
  have endsHere : LeadsDown graph region.initial [] := trivial
  have byDefault : entriesWithin graph bound region.initial [] =
      entriesAlong graph region.initial [] := by
    rw [entriesAlong, size_eq]
    exact (entriesWithin_succ_eq forest (by omega) endsHere).symm
  simp only [visit, entriesIn, found, byDefault]
  cases path with
  | nil => rfl
  | cons next rest =>
      have nextLength := forest.length_chain_of_parent leads.1
      have alongPath : entriesWithin graph bound next rest = entriesAlong graph next rest := by
        rw [entriesAlong, size_eq]
        exact (entriesWithin_succ_eq forest (by omega) leads.2).symm
      simp only [alongPath]

/-! ## Entering toward a target -/

/-- The way from a state to a target; it is empty if the target is not below. -/
def routeTo (graph : Graph κ) (target state : Nat) : List Nat :=
  if graph.isWithin target state then pathBelow graph (some state) target else []

theorem routeTo_of_within
    {target state : Nat}
    (within : graph.Within target state) :
    routeTo graph target state = pathBelow graph (some state) target :=
  if_pos (isWithin_iff.mpr within)

theorem routeTo_of_not_within
    {target state : Nat}
    (outside : ¬ graph.Within target state) :
    routeTo graph target state = [] :=
  if_neg fun found => outside (isWithin_iff.mp found)

/-- The way to a target below a branch begins with that branch. -/
theorem routeTo_of_branch
    (forest : graph.IsForest)
    {target state branch : Nat}
    (below : graph.parentOf branch = some state)
    (within : graph.Within target branch) :
    routeTo graph target state = branch :: routeTo graph target branch := by
  rw [routeTo_of_within (forest.within_trans within (forest.within_parent below)),
    pathBelow_of_branch forest below within, routeTo_of_within within]

/-- Without a child toward the target the way is empty. -/
theorem routeTo_of_childToward_none
    (forest : graph.IsForest)
    {target state : Nat}
    (missing : graph.childToward? state target = none) :
    routeTo graph target state = [] := by
  rcases forest.childToward?_eq_none_iff.mp missing with rfl | outside
  · rw [routeTo_of_within (forest.within_refl target), pathBelow_self forest]
  · exact routeTo_of_not_within outside

theorem leadsDown_routeTo (forest : graph.IsForest) (target state : Nat) :
    LeadsDown graph state (routeTo graph target state) := by
  by_cases within : graph.Within target state
  · rw [routeTo_of_within within]
    exact leadsDown_pathBelow forest within
  · rw [routeTo_of_not_within within]
    trivial

/-- The states entered with a state on the way to a target. -/
def entered (graph : Graph κ) (target state : Nat) : List Nat :=
  entriesAlong graph state (routeTo graph target state)

/-- The states entered in a region of a state on the way to a target. -/
def enteredIn (graph : Graph κ) (target state index : Nat) : List Nat :=
  entriesIn graph state index (routeTo graph target state)

/-- What is entered in a region is what is entered with its chosen child. -/
theorem enteredIn_eq
    (forest : graph.IsForest)
    {target state index child : Nat}
    (chosen : graph.chosenIn? target state index = some child) :
    enteredIn graph target state index = entered graph target child := by
  obtain ⟨childBelow, childRegion⟩ := chosenIn?_below forest chosen
  -- By default the target is not below the initial child, so the way ends here.
  have byDefault
      (elsewhere : ∀ branch, graph.childToward? state target = some branch →
        graph.regionOf branch ≠ index) :
      entriesIn graph state index [] = entered graph target child := by
    have outside : ¬ graph.Within target child := fun within =>
      elsewhere child (forest.childToward?_eq_some_iff.mpr ⟨childBelow, within⟩) childRegion
    have isInitial : (graph.regionsOf state)[index]?.map Region.initial = some child := by
      rw [← chosen]
      refine (chosenIn?_of_not_within forest ?_).symm
      intro branch below inRegion within
      exact elsewhere branch (forest.childToward?_eq_some_iff.mpr ⟨below, within⟩) inRegion
    obtain ⟨region, place, initial_eq⟩ := Option.map_eq_some_iff.mp isInitial
    rw [entriesIn, place, entered, routeTo_of_not_within outside, ← initial_eq]
  unfold enteredIn
  cases toward : graph.childToward? state target with
  | none =>
      rw [routeTo_of_childToward_none forest toward]
      exact byDefault (by simp [toward])
  | some branch =>
      obtain ⟨branchBelow, branchWithin⟩ := forest.childToward?_eq_some_iff.mp toward
      rw [routeTo_of_branch forest branchBelow branchWithin]
      by_cases inRegion : graph.regionOf branch = index
      · have same : branch = child := by
          rw [← inRegion, chosenIn?_of_within forest branchBelow branchWithin] at chosen
          exact Option.some.inj chosen
        rw [entriesIn, same, entered]
        exact if_pos (same ▸ inRegion)
      · rw [entriesIn, if_neg inRegion]
        refine byDefault fun other found => ?_
        rw [toward] at found
        cases found
        exact inRegion

/-- What is entered with a state on the way to a target: the state, and what is entered
in each of its regions. -/
theorem entered_eq (forest : graph.IsForest) (target state : Nat) :
    entered graph target state =
      state :: (List.range (graph.regionsOf state).length).flatMap
        (enteredIn graph target state) :=
  entriesAlong_eq forest (leadsDown_routeTo forest target state)

/-! ## Which states are entered -/

/-- A state that is reached from another one through chosen children. -/
def ReachedFrom (graph : Graph κ) (target above state : Nat) : Prop :=
  graph.Within state above ∧
    ∀ between, graph.Within state between → graph.Within between above →
      between ≠ above → graph.IsChosen target between

theorem ReachedFrom.refl (forest : graph.IsForest) (target state : Nat) :
    ReachedFrom graph target state state :=
  ⟨forest.within_refl state, fun _ upper lower different =>
    absurd (forest.within_antisymm lower upper) different⟩

/-- What is reached from a chosen child is reached from its parent, and conversely. -/
theorem reachedFrom_parent_iff
    (forest : graph.IsForest)
    {target parent child state : Nat}
    (below : graph.parentOf child = some parent)
    (within : graph.Within state child) :
    ReachedFrom graph target parent state ↔
      graph.IsChosen target child ∧ ReachedFrom graph target child state := by
  constructor
  · rintro ⟨_, chosen⟩
    refine ⟨chosen child within (forest.within_parent below) (forest.ne_parent below),
      within, fun between upper lower _ => chosen between upper
        (forest.within_trans lower (forest.within_parent below)) ?_⟩
    rintro rfl
    exact forest.not_within_child below lower
  · rintro ⟨childChosen, _, chosen⟩
    refine ⟨forest.within_trans within (forest.within_parent below), ?_⟩
    intro between upper lower different
    rcases forest.within_or_within upper within with inside | outside
    · by_cases equal : between = child
      · rw [equal]
        exact childChosen
      · exact chosen between upper inside equal
    · by_cases equal : child = between
      · rw [← equal]
        exact childChosen
      · have parentWithin := forest.parent_within_of_ne outside equal below
        exact absurd (forest.within_antisymm lower parentWithin) different

/-- In a region of a state exactly the states reached through its chosen child are
entered. -/
theorem mem_enteredIn_iff_of_mem_entered_iff
    (forest : graph.IsForest)
    {target parent index state : Nat}
    (inRange : index < (graph.regionsOf parent).length)
    (mem_entered_iff : ∀ child, graph.parentOf child = some parent →
      (state ∈ entered graph target child ↔ ReachedFrom graph target child state)) :
    state ∈ enteredIn graph target parent index ↔
      ReachedFrom graph target parent state ∧
        ∃ child, graph.parentOf child = some parent ∧ graph.regionOf child = index ∧
          graph.Within state child := by
  obtain ⟨child, chosen⟩ := exists_chosenIn inRange target
  obtain ⟨below, inRegion⟩ := chosenIn?_below forest chosen
  have isChosen : graph.IsChosen target child := by
    intro other otherBelow
    rw [below] at otherBelow
    cases otherBelow
    rw [inRegion]
    exact chosen
  rw [enteredIn_eq forest chosen, mem_entered_iff child below]
  constructor
  · intro reached
    exact ⟨(reachedFrom_parent_iff forest below reached.1).mpr ⟨isChosen, reached⟩,
      child, below, inRegion, reached.1⟩
  · rintro ⟨reached, other, otherBelow, otherRegion, within⟩
    obtain ⟨otherChosen, reachedOther⟩ :=
      (reachedFrom_parent_iff forest otherBelow within).mp reached
    rw [isChosen.eq_of_sameRegion otherChosen below otherBelow
      (inRegion.trans otherRegion.symm)]
    exact reachedOther

/-- With a state exactly the states reached from it are entered. -/
theorem mem_entered_iff
    (forest : graph.IsForest)
    {target state other : Nat} :
    other ∈ entered graph target state ↔ ReachedFrom graph target state other := by
  induction state using forest.inductionFromBelow with
  | step state inductionHypothesis =>
      rw [entered_eq forest, List.mem_cons, List.mem_flatMap]
      constructor
      · rintro (rfl | ⟨index, inRange, member⟩)
        · exact ReachedFrom.refl forest target other
        · exact ((mem_enteredIn_iff_of_mem_entered_iff forest (List.mem_range.mp inRange)
            inductionHypothesis).mp member).1
      · intro reached
        by_cases equal : other = state
        · exact .inl equal
        · right
          obtain ⟨child, below, within⟩ := forest.exists_branch reached.1 equal
          have inRange := forest.regionOf_lt below
          exact ⟨graph.regionOf child, List.mem_range.mpr inRange,
            (mem_enteredIn_iff_of_mem_entered_iff forest inRange inductionHypothesis).mpr
              ⟨reached, child, below, rfl, within⟩⟩

theorem mem_enteredIn_iff
    (forest : graph.IsForest)
    {target parent index state : Nat}
    (inRange : index < (graph.regionsOf parent).length) :
    state ∈ enteredIn graph target parent index ↔
      ReachedFrom graph target parent state ∧
        ∃ child, graph.parentOf child = some parent ∧ graph.regionOf child = index ∧
          graph.Within state child :=
  mem_enteredIn_iff_of_mem_entered_iff forest inRange fun _ _ => mem_entered_iff forest

/-! ## In which order they are entered -/

/-- What is entered in several regions is in order if what is entered below each child
is. -/
theorem pairwise_enteredIn
    (forest : graph.IsForest)
    {target parent : Nat}
    {indices : List Nat}
    (distinct : indices.Nodup)
    (inRange : ∀ index ∈ indices, index < (graph.regionsOf parent).length)
    (below_ordered : ∀ child, graph.parentOf child = some parent →
      (entered graph target child).Pairwise fun earlier later =>
        ¬ graph.Within earlier later) :
    (indices.flatMap (enteredIn graph target parent)).Pairwise fun earlier later =>
      ¬ graph.Within earlier later := by
  rw [List.pairwise_flatMap]
  constructor
  · intro index member
    obtain ⟨child, chosen⟩ := exists_chosenIn (inRange index member) target
    rw [enteredIn_eq forest chosen]
    exact below_ordered child (chosenIn?_below forest chosen).1
  · refine List.Pairwise.imp_of_mem ?_ distinct
    intro first second firstMember secondMember different earlier earlierMember later
      laterMember within
    obtain ⟨_, one, oneBelow, rfl, earlierWithin⟩ :=
      (mem_enteredIn_iff forest (inRange first firstMember)).mp earlierMember
    obtain ⟨_, other, otherBelow, rfl, laterWithin⟩ :=
      (mem_enteredIn_iff forest (inRange second secondMember)).mp laterMember
    exact different (congrArg graph.regionOf (forest.eq_of_common_within oneBelow otherBelow
      earlierWithin (forest.within_trans within laterWithin)))

/-- With a state everything is entered from above to below. -/
theorem pairwise_entered (forest : graph.IsForest) (target state : Nat) :
    (entered graph target state).Pairwise fun earlier later =>
      ¬ graph.Within earlier later := by
  induction state using forest.inductionFromBelow with
  | step state inductionHypothesis =>
      rw [entered_eq forest, List.pairwise_cons]
      constructor
      · intro later member within
        obtain ⟨index, inRange, member⟩ := List.mem_flatMap.mp member
        obtain ⟨_, child, below, _, laterWithin⟩ :=
          (mem_enteredIn_iff forest (List.mem_range.mp inRange)).mp member
        exact forest.not_within_child below (forest.within_trans within laterWithin)
      · exact pairwise_enteredIn forest List.nodup_range
          (fun _ member => List.mem_range.mp member) inductionHypothesis

end Plan
end Statechart
