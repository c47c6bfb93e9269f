import Mathlib.Data.Fintype.Pigeonhole
import Mathlib.Data.Fintype.Card
import Statechart.Graph.Outline
import Statechart.Proofs.Graph.Forest

/-!
# Climbing

Following parents one step at a time either stops at a root or, among finitely many
states, comes back to a state it has visited. So if no state can come back to itself
within as many steps as there are states, every climb ends at a root.
-/

namespace Statechart

/-- The state reached by following parents for a number of steps. -/
def climb (parentOf : Nat → Option Nat) : Nat → Nat → Option Nat
  | 0, state => some state
  | steps + 1, state => (parentOf state).bind (climb parentOf steps)

variable {parentOf : Nat → Option Nat}

@[simp] theorem climb_zero (state : Nat) : climb parentOf 0 state = some state := rfl

theorem climb_succ (steps state : Nat) :
    climb parentOf (steps + 1) state = (parentOf state).bind (climb parentOf steps) := rfl

/-- Climbing some steps and then some more is climbing all of them. -/
theorem climb_add (first second state : Nat) :
    climb parentOf (first + second) state =
      (climb parentOf first state).bind (climb parentOf second) := by
  induction first generalizing state with
  | zero => simp
  | succ first inductionHypothesis =>
      rw [Nat.add_right_comm, climb_succ, climb_succ]
      cases parentOf state with
      | none => rfl
      | some parent => exact inductionHypothesis parent

/-- The last step of a climb is a step like the others. -/
theorem climb_succ_last (steps state : Nat) :
    climb parentOf (steps + 1) state = (climb parentOf steps state).bind parentOf := by
  rw [climb_add]
  congr 1
  funext reached
  rw [climb_succ]
  cases parentOf reached <;> rfl

/-- A climb that has come back to an earlier state is a climb from that state to itself. -/
theorem climb_between
    {first second state reached : Nat}
    (early : climb parentOf first state = some reached)
    (late : climb parentOf second state = some reached)
    (ordered : first ≤ second) :
    climb parentOf (second - first) reached = some reached := by
  have split : climb parentOf (first + (second - first)) state =
      (climb parentOf first state).bind (climb parentOf (second - first)) :=
    climb_add first (second - first) state
  rw [Nat.add_sub_cancel' ordered, late, early] at split
  exact split.symm

/-- A climb that gets somewhere stays among the states. -/
theorem climb_lt_size
    {size steps state reached : Nat}
    (parent_lt : ∀ {child parent}, parentOf child = some parent → parent < size)
    (inside : state < size)
    (climbed : climb parentOf steps state = some reached) :
    reached < size := by
  cases steps with
  | zero =>
      cases climbed
      exact inside
  | succ steps =>
      rw [climb_succ_last] at climbed
      obtain ⟨_, _, above⟩ := Option.bind_eq_some_iff.mp climbed
      exact parent_lt above

/-- Among finitely many states, a climb of as many steps as there are states comes back to
one it has visited. -/
theorem exists_climb_eq
    {size state : Nat}
    (parent_lt : ∀ {child parent}, parentOf child = some parent → parent < size)
    (inside : state < size)
    (reaches : ∀ steps, steps ≤ size → ∃ reached, climb parentOf steps state = some reached) :
    ∃ first second reached, first < second ∧ second ≤ size ∧
      climb parentOf first state = some reached ∧
        climb parentOf second state = some reached := by
  choose! place climbed using reaches
  let visited : Fin (size + 1) → Fin size := fun steps =>
    ⟨place steps, climb_lt_size parent_lt inside (climbed steps (Nat.le_of_lt_succ steps.isLt))⟩
  obtain ⟨first, second, different, equal⟩ :=
    Fintype.exists_ne_map_eq_of_card_lt visited (by simp)
  have samePlace : place first = place second := congrArg Fin.val equal
  have firstClimbed := climbed first (Nat.le_of_lt_succ first.isLt)
  have secondClimbed := climbed second (Nat.le_of_lt_succ second.isLt)
  rcases Nat.lt_or_gt_of_ne (Fin.val_ne_of_ne different) with ordered | ordered
  · exact ⟨first, second, place first, ordered, Nat.le_of_lt_succ second.isLt, firstClimbed,
      samePlace ▸ secondClimbed⟩
  · exact ⟨second, first, place second, ordered, Nat.le_of_lt_succ first.isLt, secondClimbed,
      samePlace ▸ firstClimbed⟩

/-- Among finitely many states, either every climb stops within as many steps as there
are states, or some state comes back to itself. -/
theorem climb_stops_or_returns
    {size state : Nat}
    (parent_lt : ∀ {child parent}, parentOf child = some parent → parent < size)
    (inside : state < size) :
    (∃ steps root, steps < size ∧ climb parentOf steps state = some root ∧
      parentOf root = none) ∨
    ∃ steps reached, 0 < steps ∧ steps ≤ size ∧ reached < size ∧
      climb parentOf steps reached = some reached := by
  by_cases stops : ∃ steps root, steps < size ∧
      climb parentOf steps state = some root ∧ parentOf root = none
  · exact .inl stops
  · right
    -- Every climb of at most `size` steps reaches a state.
    have reaches : ∀ steps, steps ≤ size →
        ∃ reached, climb parentOf steps state = some reached := by
      intro steps
      induction steps with
      | zero => exact fun _ => ⟨state, rfl⟩
      | succ steps inductionHypothesis =>
          intro bounded
          obtain ⟨reached, climbed⟩ := inductionHypothesis (Nat.le_of_succ_le bounded)
          cases above : parentOf reached with
          | none => exact absurd ⟨steps, reached, bounded, climbed, above⟩ stops
          | some parent =>
              refine ⟨parent, ?_⟩
              rw [climb_succ_last, climbed]
              exact above
    obtain ⟨first, second, reached, ordered, bounded, firstClimbed, secondClimbed⟩ :=
      exists_climb_eq parent_lt inside reaches
    exact ⟨second - first, reached, by omega, by omega,
      climb_lt_size parent_lt inside firstClimbed,
      climb_between firstClimbed secondClimbed (Nat.le_of_lt ordered)⟩

/-- A climb that comes back to its start can do so within as many steps as there are
states: a longer one visits some state twice, and what lies between can be left out. -/
theorem climb_returns_within
    {size steps state : Nat}
    (parent_lt : ∀ {child parent}, parentOf child = some parent → parent < size)
    (inside : state < size)
    (positive : 0 < steps)
    (returns : climb parentOf steps state = some state) :
    ∃ fewer, 0 < fewer ∧ fewer ≤ size ∧ climb parentOf fewer state = some state := by
  induction steps using Nat.strong_induction_on with
  | _ steps inductionHypothesis =>
      by_cases short : steps ≤ size
      · exact ⟨steps, positive, short, returns⟩
      have reaches : ∀ taken, taken ≤ size →
          ∃ reached, climb parentOf taken state = some reached := by
        intro taken bounded
        rw [← Nat.add_sub_cancel' (show taken ≤ steps by omega), climb_add] at returns
        obtain ⟨reached, climbed, _⟩ := Option.bind_eq_some_iff.mp returns
        exact ⟨reached, climbed⟩
      obtain ⟨first, second, reached, ordered, bounded, firstClimbed, secondClimbed⟩ :=
        exists_climb_eq parent_lt inside reaches
      refine inductionHypothesis (first + (steps - second)) (by omega) (by omega) ?_
      rw [← Nat.add_sub_cancel' (show second ≤ steps by omega), climb_add, secondClimbed]
        at returns
      rw [climb_add, firstClimbed]
      exact returns

namespace Graph

variable {κ : Type} {graph : Graph κ}

/-- The bounded walk up holds what can be reached by climbing fewer steps than the
bound. -/
theorem mem_chainWithin_iff
    {bound state above : Nat} :
    above ∈ graph.chainWithin bound state ↔
      ∃ steps, steps < bound ∧ climb graph.parentOf steps state = some above := by
  induction bound generalizing state with
  | zero => simp
  | succ bound inductionHypothesis =>
      rw [chainWithin_succ, List.mem_cons]
      constructor
      · rintro (rfl | later)
        · exact ⟨0, Nat.succ_pos bound, rfl⟩
        · cases below : graph.parentOf state with
          | none => simp [below] at later
          | some parent =>
              simp only [below] at later
              obtain ⟨steps, bounded, climbed⟩ := inductionHypothesis.mp later
              refine ⟨steps + 1, Nat.succ_lt_succ bounded, ?_⟩
              rw [climb_succ, below]
              exact climbed
      · rintro ⟨steps, bounded, climbed⟩
        cases steps with
        | zero => exact .inl (Option.some.inj climbed).symm
        | succ steps =>
            right
            rw [climb_succ] at climbed
            cases below : graph.parentOf state with
            | none => simp [below] at climbed
            | some parent =>
                rw [below] at climbed
                exact inductionHypothesis.mpr
                  ⟨steps, Nat.lt_of_succ_lt_succ bounded, climbed⟩

end Graph

namespace Outline

variable {κ : Type} {outline : Outline κ}

/-- Following parents from a state leads back to the start if some climb does. -/
theorem returnsWithin_iff
    {start steps state : Nat} :
    outline.returnsWithin start steps (some state) = true ↔
      ∃ taken, taken < steps ∧ climb outline.parentOf taken state = some start := by
  induction steps generalizing state with
  | zero => simp [returnsWithin]
  | succ steps inductionHypothesis =>
      rw [returnsWithin, Bool.or_eq_true, beq_iff_eq]
      constructor
      · rintro (rfl | later)
        · exact ⟨0, Nat.succ_pos steps, rfl⟩
        · cases below : outline.parentOf state with
          | none =>
              rw [below] at later
              cases steps <;> simp [returnsWithin] at later
          | some parent =>
              rw [below] at later
              obtain ⟨taken, bounded, climbed⟩ := inductionHypothesis.mp later
              refine ⟨taken + 1, Nat.succ_lt_succ bounded, ?_⟩
              rw [climb_succ, below]
              exact climbed
      · rintro ⟨taken, bounded, climbed⟩
        cases taken with
        | zero => exact .inl (Option.some.inj climbed)
        | succ taken =>
            right
            rw [climb_succ] at climbed
            cases below : outline.parentOf state with
            | none => simp [below] at climbed
            | some parent =>
                rw [below] at climbed
                exact inductionHypothesis.mpr
                  ⟨taken, Nat.lt_of_succ_lt_succ bounded, climbed⟩

/-- A state lies on a cycle if climbing from it comes back to it. -/
theorem isOnCycle_iff
    {state : Nat} :
    outline.isOnCycle state = true ↔
      ∃ steps, 0 < steps ∧ steps ≤ outline.size ∧
        climb outline.parentOf steps state = some state := by
  unfold isOnCycle
  cases below : outline.parentOf state with
  | none =>
      constructor
      · intro returns
        cases size_eq : outline.size <;> simp [size_eq, returnsWithin] at returns
      · rintro ⟨steps, positive, _, climbed⟩
        obtain ⟨rest, rfl⟩ := Nat.exists_eq_succ_of_ne_zero (Nat.ne_of_gt positive)
        simp [climb_succ, below] at climbed
  | some parent =>
      rw [returnsWithin_iff]
      constructor
      · rintro ⟨steps, bounded, climbed⟩
        refine ⟨steps + 1, Nat.succ_pos steps, bounded, ?_⟩
        rw [climb_succ, below]
        exact climbed
      · rintro ⟨steps, positive, bounded, climbed⟩
        obtain ⟨rest, rfl⟩ := Nat.exists_eq_succ_of_ne_zero (Nat.ne_of_gt positive)
        rw [climb_succ, below] at climbed
        exact ⟨rest, bounded, climbed⟩

end Outline
end Statechart
