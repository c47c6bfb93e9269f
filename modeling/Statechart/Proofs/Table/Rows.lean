import Mathlib.Algebra.BigOperators.Group.List.Basic
import Statechart.Proofs.Table.Registration

/-!
# Tables with a row for each state

The entries of a table can be kept grouped by their sources, in one row for each state. Rows
grow at their ends, so each of them has the entries of its state in the order in which they
were added. Checks, candidates and size are those of the table that lists all entries.
-/

namespace Statechart

variable {κ τ ω : Type}

/-- Members with numbers in a range are counted number by number. -/
theorem sum_length_filter_range
    {α : Type}
    (numberOf : α → Nat)
    {bound : Nat}
    {list : List α}
    (inside : ∀ member ∈ list, numberOf member < bound) :
    ((List.range bound).map fun number =>
      (list.filter fun member => numberOf member == number).length).sum = list.length := by
  have counted (number : Nat) :
      (list.filter fun member => numberOf member == number).length =
        (list.map numberOf).count number := by
    rw [List.count, List.countP_map, List.countP_eq_length_filter]
    rfl
  have covered : ∀ number ∈ ((list.map numberOf : List Nat) : Multiset Nat),
      number ∈ Finset.range bound := by
    simpa using inside
  have total := Multiset.sum_count_eq_card covered
  simp only [Multiset.coe_count, Multiset.coe_card, List.length_map] at total
  simp only [counted]
  exact total

/-- Entries grouped by their sources, with one row for each state. -/
structure Rows (κ τ ω : Type) where
  /-- The rows, each in the order in which its entries were added. -/
  byState : Array (List (Entry κ τ ω))

namespace Rows

/-- Rows for a graph that has no transitions yet. -/
def new (graph : Graph κ) : Rows κ τ ω := ⟨Array.replicate graph.size []⟩

/-- Puts an entry at the end of the row of its source. -/
def push (rows : Rows κ τ ω) (entry : Entry κ τ ω) : Rows κ τ ω :=
  ⟨rows.byState.modify entry.source (· ++ [entry])⟩

/-- The number of transitions. -/
def size (rows : Rows κ τ ω) : Nat :=
  (rows.byState.toList.map List.length).sum

section Adding

variable [DecidableEq κ] [StateKey κ] [Inspect τ]

/-- Adds a transition after it has been checked. -/
def add
    (graph : Graph κ)
    (transition : Transition κ τ ω) : ExceptT ConfigurationError (StateM (Rows κ τ ω)) Unit := do
  let entry ← ofExcept (Table.entryOf graph transition)
  modify fun rows => rows.push entry

/-- Adds one transition after the other, whatever the checks of the earlier ones found. -/
def addAll
    (graph : Graph κ)
    (transitions : List (Transition κ τ ω)) :
    StateM (Rows κ τ ω) (List (Except ConfigurationError Unit)) :=
  transitions.mapM fun transition => (add graph transition).run

/-- The rows of a list of transitions, provided none of them has a problem. -/
def build
    (graph : Graph κ)
    (transitions : List (Transition κ τ ω)) : Except ConfigurationError (Rows κ τ ω) := do
  let (verdicts, rows) := (addAll graph transitions).run (new graph)
  ConfigurationError.verdict (Table.refusals verdicts)
  pure rows

end Adding

/-- The transitions of the state with a key. -/
def candidates
    [DecidableEq κ]
    [DecidableEq τ]
    (graph : Graph κ)
    (rows : Rows κ τ ω)
    (key : κ)
    (trigger : τ) : List (Transition κ τ ω) :=
  let row := ((graph.indexOf? key).bind fun state => rows.byState[state]?).getD []
  (row.filter fun entry => entry.transition.trigger == trigger).map Entry.transition

/-- The entries of a table, grouped. -/
def ofTable (graph : Graph κ) (table : Table κ τ ω) : Rows κ τ ω :=
  ⟨(Array.range graph.size).map fun state =>
    table.entries.filter fun entry => entry.source == state⟩

/-! ## Grouping the entries of a table -/

variable {graph : Graph κ}

@[simp] theorem size_byState_ofTable (graph : Graph κ) (table : Table κ τ ω) :
    (ofTable graph table).byState.size = graph.size := by
  simp [ofTable]

/-- A row has the entries of its state. -/
theorem row_ofTable
    {state : Nat}
    (inside : state < graph.size)
    (table : Table κ τ ω) :
    (ofTable graph table).byState[state]? =
      some (table.entries.filter fun entry => entry.source == state) := by
  simp [ofTable, inside]

theorem ofTable_empty (graph : Graph κ) :
    ofTable graph (Table.empty : Table κ τ ω) = new graph := by
  rw [ofTable, new, Rows.mk.injEq]
  exact Array.ext (by simp) fun state _ _ => by simp [Table.empty]

/-- An entry that is put at the end of its row is put at the end of the table. -/
theorem push_ofTable
    (graph : Graph κ)
    (table : Table κ τ ω)
    (entry : Entry κ τ ω) :
    (ofTable graph table).push entry = ofTable graph ⟨table.entries ++ [entry]⟩ := by
  rw [push, ofTable, ofTable, Rows.mk.injEq]
  refine Array.ext (by simp) fun state _ _ => ?_
  by_cases same : entry.source = state
  · simp [Array.getElem_modify, same]
  · simp [Array.getElem_modify, same]

theorem size_ofTable
    {table : Table κ τ ω}
    (inside : ∀ entry ∈ table.entries, entry.source < graph.size) :
    (ofTable graph table).size = table.size := by
  rw [size, ofTable, Table.size, ← sum_length_filter_range Entry.source inside]
  simp [Function.comp_def]

theorem candidates_ofTable
    [DecidableEq κ]
    [DecidableEq τ]
    (table : Table κ τ ω)
    (key : κ)
    (trigger : τ) :
    (ofTable graph table).candidates graph key trigger = table.candidates graph key trigger := by
  rw [candidates, Table.candidates]
  cases found : graph.indexOf? key with
  | none => rfl
  | some state =>
      rw [Option.bind_some, row_ofTable (Graph.lt_size_of_indexOf? found), Option.getD_some,
        List.filter_filter]
      simp only [Table.entriesFor, Bool.and_comm]

section Adding

variable [DecidableEq κ] [StateKey κ] [Inspect τ]

/-- Adding to the rows is adding to the table. -/
theorem run_add
    (table : Table κ τ ω)
    (transition : Transition κ τ ω) :
    (add graph transition).run.run (ofTable graph table) =
      let step := table.register graph transition
      (step.1, ofTable graph step.2) := by
  rw [Table.register_eq]
  cases checked : Table.entryOf graph transition with
  | error problem =>
      simp only [add, checked, Except.map, Except.toOption, Option.toList, List.append_nil]
      rfl
  | ok entry =>
      simp only [add, checked, Except.map, Except.toOption, Option.toList, ← push_ofTable]
      rfl

/-- Rows that refuse a transition are kept. -/
theorem run_add_of_blames
    (forest : graph.IsForest)
    {transition : Transition κ τ ω}
    {problem : ConfigurationError}
    (blames : Table.Blames graph transition problem)
    (rows : Rows κ τ ω) :
    (add graph transition).run.run rows = (.error problem, rows) := by
  rw [add, blames.entryOf_eq forest]
  rfl

theorem run_addAll_cons
    (rows : Rows κ τ ω)
    (transition : Transition κ τ ω)
    (transitions : List (Transition κ τ ω)) :
    (addAll graph (transition :: transitions)).run rows =
      let step := (add graph transition).run.run rows
      let rest := (addAll graph transitions).run step.2
      (step.1 :: rest.1, rest.2) := by
  rw [addAll, List.mapM_cons]
  rfl

/-- Adding one transition after the other to the rows is adding them to the table. -/
theorem run_addAll
    (table : Table κ τ ω)
    (transitions : List (Transition κ τ ω)) :
    (addAll graph transitions).run (ofTable graph table) =
      let outcome := Table.registerAll graph transitions table
      (outcome.1, ofTable graph outcome.2) := by
  induction transitions generalizing table with
  | nil => rfl
  | cons transition transitions inductionHypothesis =>
      rw [run_addAll_cons, run_add]
      simp only [inductionHypothesis, Table.registerAll]

/-- Rows are built of the same transitions as a table, and hold the same entries. -/
theorem build_eq (transitions : List (Transition κ τ ω)) :
    build graph transitions = (Table.build graph transitions).map (ofTable graph) := by
  rw [build, ← ofTable_empty, run_addAll, Table.build_eq_registerAll]
  dsimp only
  cases ConfigurationError.verdict
    (Table.refusals (Table.registerAll graph transitions Table.empty).1) with
  | error problem => rfl
  | ok _ => rfl

end Adding
end Rows

/-! ## Registering transitions for a graph -/

namespace Table

variable [DecidableEq κ] [DecidableEq τ] [StateKey κ] [Inspect τ]

/-- What is promised about some transitions that are registered for a graph, all at once or one
after the other. -/
structure RegistersAll (graph : Graph κ) (transitions : List (Transition κ τ ω)) : Prop where
  /-- A table is built exactly of transitions that can all be registered. -/
  exists_build_iff :
    (∃ table, build graph transitions = .ok table) ↔
      ∀ transition ∈ transitions, transition.IsRegistrable graph
  /-- Otherwise there is one problem for each of the others, in order. -/
  reports {error : ConfigurationError} :
    build graph transitions = .error error →
      List.Forall₂ (Blames graph)
        (transitions.filter fun transition => ¬ transition.IsRegistrable graph) error.problems
  /-- The candidates of a state on a trigger are the transitions from there on this trigger, in
  order. -/
  candidates_eq {table : Table κ τ ω} :
    build graph transitions = .ok table → ∀ (key : κ) (trigger : τ),
      table.candidates graph key trigger =
        transitions.filter fun transition =>
          transition.source = key ∧ transition.trigger = trigger
  /-- No transition is lost or doubled. -/
  size_eq {table : Table κ τ ω} :
    build graph transitions = .ok table → table.size = transitions.length
  /-- There is a verdict on each transition that is added. -/
  verdicts :
    List.Forall₂ (IsVerdict graph) transitions (registerAll graph transitions empty).1
  /-- It is the one that the transition would get alone. -/
  alone :
    (registerAll graph transitions empty).1 =
      transitions.map fun transition => (empty.register graph transition).1
  /-- The problems are the same as those of building. -/
  refusals_eq {error : ConfigurationError} :
    build graph transitions = .error error →
      error.problems = refusals (registerAll graph transitions empty).1
  /-- A table that refuses a transition is kept. -/
  keeps {transition : Transition κ τ ω} {problem : ConfigurationError} (table : Table κ τ ω) :
    Blames graph transition problem → table.register graph transition = (.error problem, table)
  /-- The table in the end is built of the transitions that can be registered. -/
  build_filter :
    build graph (transitions.filter fun transition => transition.IsRegistrable graph) =
      .ok (registerAll graph transitions empty).2

/-- What is promised about rows for each state in comparison with a table. -/
structure GroupsAll (graph : Graph κ) (transitions : List (Transition κ τ ω)) : Prop where
  /-- Rows are built of the same transitions, and hold the same entries. -/
  build_eq : Rows.build graph transitions = (build graph transitions).map (Rows.ofTable graph)
  /-- The same transitions are added, with the same verdicts. -/
  addAll_eq :
    (Rows.addAll graph transitions).run (Rows.new graph) =
      ((registerAll graph transitions empty).1,
        Rows.ofTable graph (registerAll graph transitions empty).2)
  /-- Rows that refuse a transition are kept. -/
  keeps {transition : Transition κ τ ω} {problem : ConfigurationError} (rows : Rows κ τ ω) :
    Blames graph transition problem →
      (Rows.add graph transition).run.run rows = (.error problem, rows)
  /-- The rows in the end are built of the transitions that can be registered. -/
  build_filter :
    Rows.build graph (transitions.filter fun transition => transition.IsRegistrable graph) =
      .ok ((Rows.addAll graph transitions).run (Rows.new graph)).2
  /-- The candidates are the same. -/
  candidates_eq {rows : Rows κ τ ω} :
    Rows.build graph transitions = .ok rows → ∀ (key : κ) (trigger : τ),
      rows.candidates graph key trigger =
        transitions.filter fun transition =>
          transition.source = key ∧ transition.trigger = trigger
  /-- No transition is lost or doubled. -/
  size_eq {rows : Rows κ τ ω} :
    Rows.build graph transitions = .ok rows → rows.size = transitions.length

section Forest

variable {graph : Graph κ} (forest : graph.IsForest) (transitions : List (Transition κ τ ω))

include forest

theorem registersAll : RegistersAll graph transitions where
  exists_build_iff := Table.exists_build_iff forest
  reports := by
    intro error refused
    rw [problems_of_build_eq_error forest refused]
    exact forall₂_problems forest
  candidates_eq := candidates_of_build forest
  size_eq := by
    intro table built
    rw [size, ← map_transition_of_build forest built, List.length_map]
  verdicts := by
    rw [registerAll_eq, List.forall₂_map_right_iff, List.forall₂_same]
    exact fun transition _ => isVerdict_register forest empty transition
  alone := by rw [registerAll_eq]
  refusals_eq := by
    intro error refused
    rw [problems_of_build_eq_error forest refused, registerAll_eq, refusals_verdicts]
  keeps table blames := blames.register_eq forest table
  build_filter := Table.build_filter forest transitions

theorem groupsAll : GroupsAll graph transitions where
  build_eq := Rows.build_eq transitions
  addAll_eq := by rw [← Rows.ofTable_empty, Rows.run_addAll]
  keeps rows blames := Rows.run_add_of_blames forest blames rows
  build_filter := by
    rw [Rows.build_eq, Table.build_filter forest, ← Rows.ofTable_empty, Rows.run_addAll]
    rfl
  candidates_eq := by
    intro rows built key trigger
    rw [Rows.build_eq, map_eq_ok] at built
    obtain ⟨table, tabled, rfl⟩ := built
    rw [Rows.candidates_ofTable, candidates_of_build forest tabled]
  size_eq := by
    intro rows built
    rw [Rows.build_eq, map_eq_ok] at built
    obtain ⟨table, tabled, rfl⟩ := built
    have inside : ∀ entry ∈ table.entries, entry.source < graph.size := fun entry member =>
      Graph.lt_size_of_indexOf? (source_of_entryOf (fits_of_build tabled entry member)).2
    rw [Rows.size_ofTable inside, size, ← map_transition_of_build forest tabled,
      List.length_map]

end Forest

/-- Transitions are registered for a graph that has been checked as they are given: all of them
if they can all be registered, and otherwise with a report on each of the others. It makes no
difference whether they are registered at once or one after the other, nor whether the entries
are kept in one list or in rows. -/
theorem registersAll_of_validate
    {η : Type}
    {blueprint : Blueprint κ η}
    {graph : Graph κ}
    (validated : blueprint.validate = .ok graph)
    (transitions : List (Transition κ τ ω)) :
    RegistersAll graph transitions ∧ GroupsAll graph transitions :=
  have forest := blueprint.isForest_of_validate validated
  ⟨registersAll forest transitions, groupsAll forest transitions⟩

/-- Two trees, the second one a single state. -/
def twoTrees : Blueprint String Unit :=
  (Blueprint.twoRegions Unit).state "off"

/-- Transitions of which the first and the last can be registered. -/
def mixed : List (Transition String String Unit) :=
  [.external "red" "next" "green", .external "ghost" "next" "red",
    { Transition.external "red" "next" "green" with kind := .internal },
    .external "red" "next" "off", .internal "red" "next"]

theorem registersAll_mixed :
    twoTrees.validate = .ok twoTrees.graph ∧
      RegistersAll twoTrees.graph mixed ∧ GroupsAll twoTrees.graph mixed ∧
      (registerAll twoTrees.graph mixed empty).1 =
        [.ok (), .error (.unknownTransitionState "ghost" (inspect "next")),
          .error (.internalTargetMismatch "red" "green" (inspect "next")),
          .error (.crossTreeTransition "red" "off"), .ok ()] := by
  have validated : twoTrees.validate = .ok twoTrees.graph := by cbv
  obtain ⟨registers, groups⟩ := registersAll_of_validate validated mixed
  exact ⟨validated, registers, groups, by cbv⟩

end Table
end Statechart
