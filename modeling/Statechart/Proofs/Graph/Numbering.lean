import Mathlib.Algebra.GroupWithZero.Nat
import Mathlib.Data.List.Nodup
import Mathlib.Data.Set.Function
import Statechart.Proofs.Configuration.LeafLists

/-!
# Depth-first numbers

The states of a forest are numbered depth first, by counting through one tree after the other.
The number of a state is counted up from that of its parent, past the trees of its earlier
siblings, and the numbers of the states within it are an interval. In a forest no bounded walk
is cut short by its bound.
-/

namespace Statechart

/-! ## Places in lists without duplicates -/

section Places

variable {α : Type} [DecidableEq α] {front middle back : List α} {first second : α}

/-- What is in front has the smaller place. -/
theorem idxOf_lt_idxOf
    (distinct : (front ++ back).Nodup)
    (early : first ∈ front)
    (late : second ∈ back) :
    (front ++ back).idxOf first < (front ++ back).idxOf second := by
  have absent : second ∉ front := fun listed =>
    (List.nodup_append.mp distinct).2.2 second listed second late rfl
  rw [List.idxOf_append_of_mem early, List.idxOf_append_of_notMem absent]
  exact (List.idxOf_lt_length_of_mem early).trans_le (Nat.le_add_right _ _)

/-- The places of what is in the middle are an interval. -/
theorem mem_middle_iff_idxOf
    (distinct : (front ++ middle ++ back).Nodup) :
    first ∈ middle ↔
      front.length ≤ (front ++ middle ++ back).idxOf first ∧
        (front ++ middle ++ back).idxOf first < front.length + middle.length := by
  rw [List.append_assoc] at distinct ⊢
  have apart := (List.nodup_append.mp distinct).2.2
  by_cases early : first ∈ front
  · have place := List.idxOf_lt_length_of_mem early
    rw [List.idxOf_append_of_mem early]
    constructor
    · intro late
      exact absurd rfl (apart first early first (List.mem_append_left back late))
    · rintro ⟨past, _⟩
      omega
  · rw [List.idxOf_append_of_notMem early]
    by_cases inside : first ∈ middle
    · have place := List.idxOf_lt_length_of_mem inside
      rw [List.idxOf_append_of_mem inside]
      exact ⟨fun _ => ⟨by omega, by omega⟩, fun _ => inside⟩
    · rw [List.idxOf_append_of_notMem inside]
      exact ⟨fun listed => absurd listed inside, fun range => by omega⟩

end Places

namespace Graph

variable {κ : Type} {graph : Graph κ}

/-- A state followed by everything below it, depth first. -/
def subtree (graph : Graph κ) (state : Nat) : List Nat :=
  graph.preorderWithin graph.size state

/-- How many states lie within a state. -/
def countWithin (graph : Graph κ) (state : Nat) : Nat :=
  (List.range graph.size).countP fun other => graph.isWithin other state

/-- Everything within the first state is numbered before everything within the second. -/
def Precedes (graph : Graph κ) (first second : Nat) : Prop :=
  ∀ {early late : Nat}, graph.Within early first → graph.Within late second →
    graph.orderOf early < graph.orderOf late

/-- In the depth-first order a root comes behind the trees of the earlier roots. -/
theorem preorder_of_root
    {root : Nat}
    {earlier later : List Nat}
    (roots : graph.roots = earlier ++ root :: later) :
    graph.preorder =
      earlier.flatMap graph.subtree ++ graph.subtree root ++ later.flatMap graph.subtree := by
  show graph.roots.flatMap graph.subtree = _
  rw [roots]
  simp

/-! ## Counting through a forest -/

namespace Count

@[simp] theorem size_numbers_meet (count : Count) (state : Nat) :
    (count.meet state).numbers.size = count.numbers.size :=
  Array.size_setIfInBounds

/-- A state that is not met keeps its number. -/
theorem getElem?_foldl_meet_of_notMem
    {states : List Nat}
    {state : Nat}
    (absent : state ∉ states)
    (count : Count) :
    (states.foldl meet count).numbers[state]? = count.numbers[state]? := by
  induction states generalizing count with
  | nil => rfl
  | cons first states inductionHypothesis =>
      rw [List.mem_cons, not_or] at absent
      obtain ⟨other, absent⟩ := absent
      rw [List.foldl_cons, inductionHypothesis absent]
      exact Array.getElem?_setIfInBounds_ne (Ne.symm other)

/-- States that are met one after the other get their places as numbers. -/
theorem getElem?_foldl_meet
    {states : List Nat}
    (distinct : states.Nodup)
    {state : Nat}
    (listed : state ∈ states)
    {count : Count}
    (inside : state < count.numbers.size) :
    (states.foldl meet count).numbers[state]? = some (count.next + states.idxOf state) := by
  induction states generalizing count with
  | nil => contradiction
  | cons first states inductionHypothesis =>
      obtain ⟨absent, distinct⟩ := List.nodup_cons.mp distinct
      rw [List.foldl_cons]
      by_cases isFirst : state = first
      · subst isFirst
        rw [getElem?_foldl_meet_of_notMem absent, List.idxOf_cons_self]
        exact Array.getElem?_setIfInBounds_self_of_lt inside
      · have later := (List.mem_cons.mp listed).resolve_left isFirst
        rw [inductionHypothesis distinct later (by rwa [size_numbers_meet]),
          List.idxOf_cons_ne _ (Ne.symm isFirst), meet, Nat.add_right_comm, Nat.add_assoc]

end Count

/-- Counting from a state meets what the depth-first order lists. -/
theorem countFrom_eq_foldl (graph : Graph κ) (bound : Nat) (count : Count) (state : Nat) :
    graph.countFrom bound count state =
      (graph.preorderWithin bound state).foldl Count.meet count := by
  induction bound generalizing count state with
  | zero => rfl
  | succ bound inductionHypothesis =>
      have below : graph.countFrom bound = fun count child =>
          (graph.preorderWithin bound child).foldl Count.meet count :=
        funext₂ inductionHypothesis
      rw [countFrom, preorderWithin, List.foldl_cons, List.foldl_flatMap, below]

/-- Counting tree by tree meets the states in their depth-first order. -/
theorem numbers_eq_foldl (graph : Graph κ) :
    graph.numbers =
      (graph.preorder.foldl Count.meet ⟨.replicate graph.size 0, 0⟩).numbers := by
  have trees : graph.countFrom graph.size = fun count root =>
      (graph.preorderWithin graph.size root).foldl Count.meet count :=
    funext₂ (graph.countFrom_eq_foldl graph.size)
  rw [numbers, preorder, List.foldl_flatMap, trees]

namespace IsForest

variable (forest : graph.IsForest)

include forest

/-! ## Walks that are not cut short -/

theorem length_chain_pos (state : Nat) : 0 < (graph.chain state).length :=
  List.length_pos_of_mem (forest.within_refl state)

theorem chainWithin_eq
    {bound : Nat}
    (enough : graph.size ≤ bound)
    (state : Nat) :
    graph.chainWithin bound state = graph.chain state := by
  have met : ∃ root ∈ graph.chain state, graph.parentOf root = none :=
    ⟨graph.rootOf state, forest.within_rootOf state, forest.parentOf_rootOf state⟩
  induction bound, enough using Nat.le_induction with
  | base => rfl
  | succ bound _ inductionHypothesis =>
      obtain ⟨root, above, isRoot⟩ := met
      rw [chainWithin_succ_eq_of_root (inductionHypothesis ▸ above) isRoot,
        inductionHypothesis]

theorem reachesWithin_eq
    {bound : Nat}
    (enough : graph.size ≤ bound)
    (state above : Nat) :
    graph.reachesWithin above bound state = graph.isWithin state above := by
  rw [Bool.eq_iff_iff, reachesWithin_iff, isWithin_iff, forest.chainWithin_eq enough]
  rfl

theorem topWithin_eq
    {bound : Nat}
    (enough : graph.size ≤ bound)
    (state : Nat) :
    graph.topWithin bound state = graph.rootOf state := by
  refine topWithin_eq_of_root ?_ (forest.parentOf_rootOf state)
  rw [forest.chainWithin_eq enough]
  exact forest.within_rootOf state

theorem stepBelowWithin_eq
    {bound : Nat}
    (enough : graph.size ≤ bound)
    (state above : Nat) :
    graph.stepBelowWithin above bound state = graph.childToward? above state := by
  ext child
  rw [forest.childToward?_eq_some_iff]
  constructor
  · intro found
    obtain ⟨isChild, met⟩ := stepBelowWithin_eq_some found
    rw [forest.chainWithin_eq enough] at met
    exact ⟨isChild, met⟩
  · rintro ⟨isChild, within⟩
    have met : child ∈ graph.chainWithin bound state := by
      rw [forest.chainWithin_eq enough]
      exact within
    obtain ⟨found, found_eq⟩ :=
      Option.isSome_iff_exists.mp (stepBelowWithin_isSome isChild met)
    obtain ⟨foundChild, foundMet⟩ := stepBelowWithin_eq_some found_eq
    rw [forest.chainWithin_eq enough] at foundMet
    rw [forest.eq_of_common_within isChild foundChild within foundMet]
    exact found_eq

theorem preorderWithin_succ_eq
    {bound state : Nat}
    (enough : graph.size < bound + (graph.chain state).length) :
    graph.preorderWithin (bound + 1) state = graph.preorderWithin bound state := by
  induction bound generalizing state with
  | zero =>
      have bounded := length_chainWithin_le graph graph.size state
      rw [chain] at enough
      omega
  | succ bound inductionHypothesis =>
      rw [preorderWithin, preorderWithin]
      congr 1
      refine List.flatMap_congr fun child listed => inductionHypothesis ?_
      have length := forest.length_chain_of_parent (forest.mem_childrenOf_iff.mp listed)
      omega

theorem initialLeavesWithin_succ_eq
    {bound state : Nat}
    (enough : graph.size < bound + (graph.chain state).length) :
    graph.initialLeavesWithin (bound + 1) state = graph.initialLeavesWithin bound state := by
  induction bound generalizing state with
  | zero =>
      have bounded := length_chainWithin_le graph graph.size state
      rw [chain] at enough
      omega
  | succ bound inductionHypothesis =>
      rw [initialLeavesWithin_succ, initialLeavesWithin_succ]
      cases regions : graph.regionsOf state with
      | nil => rfl
      | cons first others =>
          refine List.flatMap_congr fun region listed => inductionHypothesis ?_
          obtain ⟨index, found⟩ := List.mem_iff_getElem?.mp (regions ▸ listed)
          have length := forest.length_chain_of_parent (forest.initial_below found).1
          omega

/-- A descent that may reach the bottom does not change with a larger bound. -/
theorem preorderWithin_eq
    {bound : Nat}
    (enough : graph.size ≤ bound)
    (state : Nat) :
    graph.preorderWithin bound state = graph.subtree state := by
  have positive := forest.length_chain_pos state
  induction bound, enough using Nat.le_induction with
  | base => rfl
  | succ bound enough inductionHypothesis =>
      rw [forest.preorderWithin_succ_eq (by omega), inductionHypothesis]

theorem initialLeavesWithin_eq
    {bound : Nat}
    (enough : graph.size ≤ bound)
    (state : Nat) :
    graph.initialLeavesWithin bound state = graph.initialLeaves state := by
  have positive := forest.length_chain_pos state
  induction bound, enough using Nat.le_induction with
  | base => rfl
  | succ bound enough inductionHypothesis =>
      rw [forest.initialLeavesWithin_succ_eq (by omega), inductionHypothesis]

/-- The default leaves of a composite state are those of its initial children. -/
theorem initialLeaves_eq (state : Nat) :
    graph.initialLeaves state =
      match graph.regionsOf state with
      | [] => [state]
      | regions => regions.flatMap fun region => graph.initialLeaves region.initial := by
  rw [← forest.initialLeavesWithin_eq (Nat.le_succ graph.size), initialLeavesWithin_succ]
  rfl

/-- Going from children to parents comes to an end. -/
theorem wellFounded_upward :
    WellFounded fun parent child => graph.parentOf child = some parent := by
  refine Subrelation.wf ?_ (measure fun state => (graph.chain state).length).wf
  intro parent child below
  have length := forest.length_chain_of_parent below
  show (graph.chain parent).length < (graph.chain child).length
  omega

/-- Going from parents to children comes to an end. -/
theorem wellFounded_downward :
    WellFounded fun child parent => graph.parentOf child = some parent := by
  refine Subrelation.wf ?_
    (measure fun state => graph.size - (graph.chain state).length).wf
  intro child parent below
  have length := forest.length_chain_of_parent below
  have bounded := length_chainWithin_le graph graph.size child
  show graph.size - (graph.chain child).length < graph.size - (graph.chain parent).length
  rw [chain] at length
  rw [chain]
  omega

/-! ## Trees -/

/-- The tree of a state is the state followed by the trees of its children. -/
theorem subtree_eq (state : Nat) :
    graph.subtree state = state :: (graph.childrenOf state).flatMap graph.subtree := by
  obtain ⟨bound, size_eq⟩ := Nat.exists_eq_succ_of_ne_zero (Nat.ne_of_gt forest.nonempty)
  rw [subtree, size_eq, preorderWithin]
  congr 1
  refine List.flatMap_congr fun child listed => ?_
  -- The way up from a child has two states at least, so a smaller bound suffices.
  have length := forest.length_chain_of_parent (forest.mem_childrenOf_iff.mp listed)
  have positive := forest.length_chain_pos state
  rw [subtree, size_eq, forest.preorderWithin_succ_eq (by omega)]

theorem mem_subtree_iff {state other : Nat} :
    other ∈ graph.subtree state ↔ graph.Within other state := by
  have positive := forest.length_chain_pos state
  exact forest.mem_preorderWithin_iff (by omega)

theorem nodup_subtree (state : Nat) : (graph.subtree state).Nodup :=
  forest.nodup_preorderWithin graph.size state

/-- The tree of a state has as many states as lie within it. -/
theorem length_subtree {state : Nat} (inside : state < graph.size) :
    (graph.subtree state).length = graph.countWithin state := by
  have same : (graph.subtree state).Perm
      ((List.range graph.size).filter fun other => graph.isWithin other state) := by
    refine (List.perm_ext_iff_of_nodup (forest.nodup_subtree state)
      (List.nodup_range.filter _)).mpr fun other => ?_
    rw [forest.mem_subtree_iff, List.mem_filter, List.mem_range, isWithin_iff]
    exact ⟨fun within => ⟨forest.lt_size_of_within within inside, within⟩, And.right⟩
  rw [countWithin, List.countP_eq_length_filter]
  exact same.length_eq

/-- Trees next to each other have as many states as lie within them. -/
theorem length_flatMap_subtree
    {states : List Nat}
    (inside : ∀ state ∈ states, state < graph.size) :
    (states.flatMap graph.subtree).length = (states.map graph.countWithin).sum := by
  rw [List.length_flatMap]
  congr 1
  exact List.map_congr_left fun state listed => forest.length_subtree (inside state listed)

theorem child_lt_size
    {parent child : Nat}
    (listed : child ∈ graph.childrenOf parent) :
    child < graph.size :=
  lt_size_of_parentOf (forest.mem_childrenOf_iff.mp listed)

/-! ## Numbers -/

theorem orderOf_eq
    {state : Nat}
    {before after : List Nat}
    (split : graph.preorder = before ++ state :: after) :
    graph.orderOf state = before.length := by
  have distinct := forest.nodup_preorder
  rw [split, List.nodup_append] at distinct
  have absent : state ∉ before := fun early =>
    distinct.2.2 state early state List.mem_cons_self rfl
  rw [orderOf, split, List.idxOf_append_of_notMem absent, List.idxOf_cons_self, Nat.add_zero]

/-- Counting through a forest gives every state its number. -/
theorem getElem?_numbers
    {state : Nat}
    (inside : state < graph.size) :
    graph.numbers[state]? = some (graph.orderOf state) := by
  rw [numbers_eq_foldl, Count.getElem?_foldl_meet forest.nodup_preorder
    (forest.mem_preorder_iff.mpr inside) (by rwa [Array.size_replicate]), Nat.zero_add]
  rfl

/-- In the depth-first order a child comes behind its parent and the trees of its earlier
siblings. -/
theorem preorder_of_child
    {parent child : Nat}
    {before after earlier later : List Nat}
    (split : graph.preorder = before ++ graph.subtree parent ++ after)
    (children : graph.childrenOf parent = earlier ++ child :: later) :
    graph.preorder =
      (before ++ parent :: earlier.flatMap graph.subtree) ++ graph.subtree child ++
        (later.flatMap graph.subtree ++ after) := by
  rw [split, forest.subtree_eq parent, children]
  simp

/-- Every tree is a part of the depth-first order, and its first state has its place as its
number. -/
theorem exists_preorder_eq
    {state : Nat}
    (inside : state < graph.size) :
    ∃ before after, graph.preorder = before ++ graph.subtree state ++ after ∧
      graph.orderOf state = before.length := by
  have placed : ∃ before after, graph.preorder = before ++ graph.subtree state ++ after := by
    induction state using forest.inductionFromAbove with
    | root state isRoot =>
        obtain ⟨earlier, later, roots⟩ :=
          List.append_of_mem (forest.mem_roots_iff.mpr ⟨inside, isRoot⟩)
        exact ⟨_, _, preorder_of_root roots⟩
    | child state parent below inductionHypothesis =>
        obtain ⟨before, after, split⟩ := inductionHypothesis (forest.parent_lt below)
        obtain ⟨earlier, later, children⟩ :=
          List.append_of_mem (forest.mem_childrenOf_iff.mpr below)
        exact ⟨_, _, forest.preorder_of_child split children⟩
  obtain ⟨before, after, split⟩ := placed
  have first := split
  rw [forest.subtree_eq state, List.append_assoc, List.cons_append] at first
  exact ⟨before, after, split, forest.orderOf_eq first⟩

/-- A root is numbered behind everything within the earlier roots. -/
theorem orderOf_root
    {root : Nat}
    {earlier later : List Nat}
    (roots : graph.roots = earlier ++ root :: later) :
    graph.orderOf root = (earlier.map graph.countWithin).sum := by
  have split := preorder_of_root roots
  rw [forest.subtree_eq root, List.append_assoc, List.cons_append] at split
  rw [forest.orderOf_eq split, forest.length_flatMap_subtree]
  intro state listed
  exact (forest.mem_roots_iff.mp (roots ▸ List.mem_append_left _ listed)).1

/-- A child is numbered behind its parent and everything within its earlier siblings. -/
theorem orderOf_child
    {parent child : Nat}
    {earlier later : List Nat}
    (children : graph.childrenOf parent = earlier ++ child :: later) :
    graph.orderOf child =
      graph.orderOf parent + 1 + (earlier.map graph.countWithin).sum := by
  have listed : child ∈ graph.childrenOf parent := by simp [children]
  obtain ⟨before, after, whole, place⟩ := forest.exists_preorder_eq
    (forest.parent_lt (forest.mem_childrenOf_iff.mp listed))
  have split := forest.preorder_of_child whole children
  rw [forest.subtree_eq child, List.append_assoc, List.cons_append] at split
  have earlierInside : ∀ state ∈ earlier, state < graph.size := fun state early =>
    forest.child_lt_size (children ▸ List.mem_append_left _ early)
  rw [forest.orderOf_eq split, place, List.length_append, List.length_cons,
    forest.length_flatMap_subtree earlierInside]
  omega

/-- The numbers of what lies within a state are the interval that starts with its own. -/
theorem within_iff_orderOf
    {state above : Nat}
    (inside : above < graph.size) :
    graph.Within state above ↔
      graph.orderOf above ≤ graph.orderOf state ∧
        graph.orderOf state < graph.orderOf above + graph.countWithin above := by
  obtain ⟨before, after, split, place⟩ := forest.exists_preorder_eq inside
  have distinct := forest.nodup_preorder
  rw [split] at distinct
  rw [← forest.mem_subtree_iff, mem_middle_iff_idxOf distinct, ← split, place,
    forest.length_subtree inside]
  rfl

/-- Of trees that follow each other in the depth-first order, earlier ones precede later
ones. -/
theorem pairwise_precedes
    {states : List Nat}
    (before after : List Nat)
    (split : graph.preorder = before ++ states.flatMap graph.subtree ++ after) :
    states.Pairwise graph.Precedes := by
  rw [List.pairwise_iff_forall_sublist]
  intro first second sublist early late withinFirst withinSecond
  obtain ⟨front, back, rfl, inFront, inBack⟩ := List.cons_sublist_iff.mp sublist
  rw [List.singleton_sublist] at inBack
  have cut : graph.preorder = (before ++ front.flatMap graph.subtree) ++
      (back.flatMap graph.subtree ++ after) := by
    rw [split]
    simp
  have distinct := forest.nodup_preorder
  rw [cut] at distinct
  have earlyListed : early ∈ before ++ front.flatMap graph.subtree :=
    List.mem_append_right _
      (List.mem_flatMap.mpr ⟨first, inFront, forest.mem_subtree_iff.mpr withinFirst⟩)
  have lateListed : late ∈ back.flatMap graph.subtree ++ after :=
    List.mem_append_left _
      (List.mem_flatMap.mpr ⟨second, inBack, forest.mem_subtree_iff.mpr withinSecond⟩)
  rw [orderOf, orderOf, cut]
  exact idxOf_lt_idxOf distinct earlyListed lateListed

/-- Earlier roots precede later ones. -/
theorem pairwise_precedes_roots : graph.roots.Pairwise graph.Precedes :=
  forest.pairwise_precedes [] []
    (by rw [List.nil_append, List.append_nil]; rfl)

/-- Earlier children precede later ones, those of earlier regions first. -/
theorem pairwise_precedes_children (parent : Nat) :
    (graph.childrenOf parent).Pairwise graph.Precedes := by
  by_cases inside : parent < graph.size
  · obtain ⟨before, after, split, _⟩ := forest.exists_preorder_eq inside
    refine forest.pairwise_precedes (before ++ [parent]) after ?_
    rw [split, forest.subtree_eq parent]
    simp
  · have childless : graph.childrenOf parent = [] :=
      List.eq_nil_iff_forall_not_mem.mpr fun child listed =>
        inside (forest.parent_lt (forest.mem_childrenOf_iff.mp listed))
    rw [childless]
    exact List.Pairwise.nil

theorem length_preorder : graph.preorder.length = graph.size := by
  have same : graph.preorder.Perm (List.range graph.size) := by
    refine (List.perm_ext_iff_of_nodup forest.nodup_preorder List.nodup_range).mpr
      fun state => ?_
    rw [forest.mem_preorder_iff, List.mem_range]
  rw [same.length_eq, List.length_range]

/-- The numbers of the states are all numbers below the number of states, each once. -/
theorem bijOn_orderOf :
    Set.BijOn graph.orderOf {state | state < graph.size} {place | place < graph.size} := by
  refine ⟨fun state inside => ?_, fun first firstInside second secondInside same => ?_,
    fun place inRange => ?_⟩
  · have listed := forest.mem_preorder_iff.mpr inside
    exact (List.idxOf_lt_length_of_mem listed).trans_eq forest.length_preorder
  · exact (List.idxOf_inj (forest.mem_preorder_iff.mpr firstInside)).mp same
  · have placed : place < graph.preorder.length := by
      rw [forest.length_preorder]
      exact inRange
    refine ⟨graph.preorder[place], forest.mem_preorder_iff.mp (List.getElem_mem placed), ?_⟩
    exact forest.nodup_preorder.idxOf_getElem place placed

end IsForest
end Graph
end Statechart
