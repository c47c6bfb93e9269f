import Statechart.Machine.Execution
import Statechart.Proofs.Checked.Walks
import Statechart.Proofs.Table.Rows

/-!
# The checked search

The checked search for a transition works on rows with one place for each state and on marks
for the states that have been searched. It looks up the row and the mark of every state that
it meets, and the node of every source whose guard it asks. It fails if one of them is missing,
or if a way up leads on when its bound is used up. In a forest it asks the candidates in the
order of the plain search.
-/

namespace Statechart

variable {κ τ ω : Type}

/-- What is taken from the front of a list depends on its members alone. -/
theorem takeWhile_congr
    {α : Type}
    {keep other : α → Bool}
    {list : List α}
    (same : ∀ member ∈ list, keep member = other member) :
    list.takeWhile keep = list.takeWhile other := by
  induction list with
  | nil => rfl
  | cons first rest inductionHypothesis =>
      obtain ⟨firstSame, restSame⟩ := List.forall_mem_cons.mp same
      rw [List.takeWhile_cons, List.takeWhile_cons, firstSame, inductionHypothesis restSame]

/-! ## Searching on -/

namespace Definition

/-- The outcome of a search: the entry that was found, the faults of the guards asked before
it, and the session. -/
abbrev Found (κ τ ω : Type) : Type :=
  Option (Entry κ τ ω) × List StepError × Session κ τ ω

/-- A search that goes on elsewhere if nothing has been found. -/
def Found.orElse (found : Found κ τ ω) (next : Session κ τ ω → Found κ τ ω) : Found κ τ ω :=
  match found with
  | (some entry, faults, session) => (some entry, faults, session)
  | (none, faults, session) =>
      let (chosen, later, session) := next session
      (chosen, faults ++ later, session)

variable [StateKey κ] [Inspect τ]

theorem choose_append
    (definition : Definition κ τ ω)
    (event : Event τ)
    (first second : List (Entry κ τ ω))
    (session : Session κ τ ω) :
    definition.choose event (first ++ second) session =
      Found.orElse (definition.choose event first session)
        (definition.choose event second) := by
  induction first generalizing session with
  | nil => rfl
  | cons entry rest inductionHypothesis =>
      rw [List.cons_append, choose, choose]
      obtain ⟨verdict, asked⟩ := consult session entry event
      rcases verdict with fault | (_ | _)
      · simp only [inductionHypothesis asked]
        obtain ⟨chosen | chosen, faults, next⟩ := definition.choose event rest asked
        · rfl
        · rfl
      · exact inductionHypothesis asked
      · rfl

end Definition

namespace Table

/-- The states that are met from some leaves on after others have been searched. -/
def searchOn (graph : Graph κ) (searched : List Nat) : List Nat → List Nat
  | [] => []
  | leaf :: leaves =>
      let met := (graph.chain leaf).takeWhile fun state => !searched.contains state
      met ++ searchOn graph (searched ++ met) leaves

theorem searchOrder_eq_searchOn (graph : Graph κ) (leaves : List Nat) :
    searchOrder graph leaves = searchOn graph [] leaves := by
  have searchOn_eq (searched : List Nat) :
      leaves.foldl (fun searched leaf =>
        searched ++ (graph.chain leaf).takeWhile fun state => !searched.contains state)
          searched = searched ++ searchOn graph searched leaves := by
    induction leaves generalizing searched with
    | nil => exact (List.append_nil searched).symm
    | cons leaf leaves inductionHypothesis =>
        rw [List.foldl_cons, inductionHypothesis, searchOn, List.append_assoc]
  exact searchOn_eq []

end Table

namespace Checked

open Definition (Found)

section Search

variable [StateKey κ] [DecidableEq τ] [Inspect τ]

/-- Asks the entries of a row in order. Entries on other triggers are passed over. -/
def askRow (definition : Definition κ τ ω) (event : Event τ) :
    List (Entry κ τ ω) → Session κ τ ω → Option (Found κ τ ω)
  | [], session => some (none, [], session)
  | entry :: row, session =>
      if entry.transition.trigger ≠ event.trigger then askRow definition event row session
      else do
        let source ← definition.graph.nodes[entry.source]?
        let (verdict, session) := Definition.consult session entry event
        match verdict with
        | .ok true => return (some entry, [], session.note (.selected entry.transition.describe))
        | .ok false => askRow definition event row session
        | .error fault =>
            let (chosen, faults, session) ← askRow definition event row session
            let named := .ofGuardFault (StateKey.name source.id) (inspect event.trigger) fault
            return (chosen, named :: faults, session)

/-- Walks up as long as it meets states without a mark, marks them and asks their rows. -/
def searchUp (definition : Definition κ τ ω) (rows : Rows κ τ ω) (event : Event τ) :
    List Nat → Array Bool → Session κ τ ω → Option (Array Bool × Found κ τ ω)
  | [], marks, session => some (marks, none, [], session)
  | state :: states, marks, session => do
      if ← marks[state]? then return (marks, none, [], session)
      else
        let marks := marks.setIfInBounds state true
        let (chosen, faults, session) ← askRow definition event (← rows.byState[state]?) session
        match chosen with
        | some entry => return (marks, some entry, faults, session)
        | none =>
            let (marks, chosen, later, session) ←
              searchUp definition rows event states marks session
            return (marks, chosen, faults ++ later, session)

/-- Searches from one leaf after the other. -/
def searchFrom
    (definition : Definition κ τ ω)
    (bound : Nat)
    (rows : Rows κ τ ω)
    (event : Event τ) :
    List Nat → Array Bool → Session κ τ ω → Option (Found κ τ ω)
  | [], _, session => some (none, [], session)
  | leaf :: leaves, marks, session => do
      let way ← chain definition.graph bound leaf
      let (marks, chosen, faults, session) ← searchUp definition rows event way marks session
      match chosen with
      | some entry => return (some entry, faults, session)
      | none =>
          let (chosen, later, session) ← searchFrom definition bound rows event leaves marks session
          return (chosen, faults ++ later, session)

/-- Searches the transition for an event. No state has a mark at first. -/
def select
    (definition : Definition κ τ ω)
    (bound : Nat)
    (rows : Rows κ τ ω)
    (event : Event τ)
    (leaves : List Nat)
    (session : Session κ τ ω) : Option (Found κ τ ω) :=
  searchFrom definition bound rows event leaves (Array.replicate rows.byState.size false) session

/-! ## The result of the search -/

variable {definition : Definition κ τ ω} {event : Event τ}

/-- Asking a row asks its entries on the trigger of the event. -/
theorem askRow_eq
    {row : List (Entry κ τ ω)}
    (inside : ∀ entry ∈ row, entry.source < definition.graph.size)
    (session : Session κ τ ω) :
    askRow definition event row session =
      some (definition.choose event
        (row.filter fun entry => entry.transition.trigger == event.trigger) session) := by
  induction row generalizing session with
  | nil => rfl
  | cons entry row inductionHypothesis =>
      obtain ⟨entryInside, rowInside⟩ := List.forall_mem_cons.mp inside
      obtain ⟨source, found⟩ : ∃ source, definition.graph.nodes[entry.source]? = some source :=
        ⟨_, Array.getElem?_eq_getElem entryInside⟩
      have named : definition.graph.nameOf entry.source = StateKey.name source.id := by
        rw [Graph.nameOf, Graph.key?, found]
        rfl
      rw [askRow]
      by_cases onTrigger : entry.transition.trigger = event.trigger
      · rw [if_neg (not_not.mpr onTrigger), List.filter_cons_of_pos (by simpa using onTrigger),
          Definition.choose, found, named]
        obtain ⟨verdict, asked⟩ := Definition.consult session entry event
        rcases verdict with fault | (_ | _)
        · simp [inductionHypothesis rowInside asked]
        · simpa using inductionHypothesis rowInside asked
        · rfl
      · rw [if_pos onTrigger, List.filter_cons_of_neg (by simpa using onTrigger)]
        exact inductionHypothesis rowInside session

/-- The marks of the states that have been searched. -/
def Marks (size : Nat) (marks : Array Bool) (searched : List Nat) : Prop :=
  ∀ state < size, marks[state]? = some (searched.contains state)

theorem marks_replicate (size : Nat) : Marks size (Array.replicate size false) [] := by
  intro state inside
  simp [inside]

/-- Marking a state that is searched. -/
theorem Marks.mark
    {size state : Nat}
    {marks : Array Bool}
    {searched : List Nat}
    (marked : Marks size marks searched)
    (inside : state < size) :
    Marks size (marks.setIfInBounds state true) (searched ++ [state]) := by
  intro other otherInside
  have present := (Array.getElem?_eq_some_iff.mp (marked state inside)).1
  rw [Array.getElem?_setIfInBounds]
  by_cases same : state = other
  · simp [← same, present]
  · rw [if_neg same, marked other otherInside]
    simp [Ne.symm same]

/-- Asking the row of a state asks its candidates. -/
theorem askRow_ofTable
    {state : Nat}
    (inside : state < definition.graph.size)
    (session : Session κ τ ω) :
    askRow definition event
        (definition.table.entries.filter fun entry => entry.source == state) session =
      some (definition.choose event
        (definition.table.entriesFor state event.trigger) session) := by
  rw [askRow_eq, List.filter_filter]
  · simp only [Table.entriesFor, Bool.and_comm]
  · intro entry member
    rw [beq_iff_eq.mp (List.mem_filter.mp member).2]
    exact inside

/-- Walking up from a leaf asks the candidates of the states that have no mark yet, and marks
these states. -/
theorem searchUp_eq
    (event : Event τ)
    {states searched : List Nat}
    {marks : Array Bool}
    (inside : ∀ state ∈ states, state < definition.graph.size)
    (distinct : states.Nodup)
    (marked : Marks definition.graph.size marks searched)
    (session : Session κ τ ω) :
    let met := states.takeWhile fun state => !searched.contains state
    let found := definition.choose event
      (met.flatMap fun state => definition.table.entriesFor state event.trigger) session
    ∃ after, searchUp definition (Rows.ofTable definition.graph definition.table) event states
        marks session = some (after, found) ∧
      (found.1 = none → Marks definition.graph.size after (searched ++ met)) := by
  induction states generalizing searched marks session with
  | nil => exact ⟨marks, rfl, fun _ => by simpa using marked⟩
  | cons state states inductionHypothesis =>
      obtain ⟨stateInside, statesInside⟩ := List.forall_mem_cons.mp inside
      obtain ⟨new, statesDistinct⟩ := List.nodup_cons.mp distinct
      rw [searchUp, marked state stateInside, List.takeWhile_cons]
      cases known : searched.contains state with
      | true => exact ⟨marks, rfl, fun _ => by simpa using marked⟩
      | false =>
          have sameMet : (states.takeWhile fun other => !(searched ++ [state]).contains other) =
              states.takeWhile fun other => !searched.contains other := by
            refine takeWhile_congr fun other member => ?_
            have different : other ≠ state := fun equal => new (equal ▸ member)
            simp [different]
          simp only [Option.bind_eq_bind, Option.bind_some, Rows.row_ofTable stateInside,
            askRow_ofTable stateInside, Bool.not_false, if_true, List.flatMap_cons,
            Definition.choose_append]
          rcases definition.choose event (definition.table.entriesFor state event.trigger)
            session with ⟨_ | entry, faults, asked⟩
          · obtain ⟨after, walked, afterMarked⟩ := inductionHypothesis statesInside
              statesDistinct (marked.mark stateInside) asked
            rw [sameMet] at walked afterMarked
            refine ⟨after, ?_, ?_⟩
            · simp [walked, Found.orElse]
            · simpa [Found.orElse] using afterMarked
          · exact ⟨_, rfl, fun nothing => nomatch nothing⟩

/-- Searching from some leaves asks the candidates of the states that are met from there on. -/
theorem searchFrom_eq
    (forest : definition.graph.IsForest)
    {bound : Nat}
    (enough : definition.graph.size ≤ bound)
    {leaves searched : List Nat}
    {marks : Array Bool}
    (inside : ∀ leaf ∈ leaves, leaf < definition.graph.size)
    (marked : Marks definition.graph.size marks searched)
    (session : Session κ τ ω) :
    searchFrom definition bound (Rows.ofTable definition.graph definition.table) event leaves
        marks session =
      some (definition.choose event
        ((Table.searchOn definition.graph searched leaves).flatMap fun state =>
          definition.table.entriesFor state event.trigger) session) := by
  induction leaves generalizing searched marks session with
  | nil => rfl
  | cons leaf leaves inductionHypothesis =>
      obtain ⟨leafInside, leavesInside⟩ := List.forall_mem_cons.mp inside
      have wayInside : ∀ state ∈ definition.graph.chain leaf, state < definition.graph.size :=
        fun _ above => forest.above_lt_size above leafInside
      obtain ⟨after, walked, afterMarked⟩ :=
        searchUp_eq event wayInside (forest.nodup_chain leaf) marked session
      rw [searchFrom, chain_eq forest enough leafInside, Table.searchOn]
      simp only [Option.bind_eq_bind, Option.bind_some, walked, List.flatMap_append,
        Definition.choose_append]
      revert afterMarked
      rcases definition.choose event _ session with ⟨_ | entry, faults, asked⟩
      · intro afterMarked
        rw [inductionHypothesis leavesInside (afterMarked rfl) asked]
        rfl
      · exact fun _ => rfl

/-- The checked search ends, finds every row, mark and node, and selects like the plain
search. -/
theorem select_eq
    (forest : definition.graph.IsForest)
    {bound : Nat}
    (enough : definition.graph.size ≤ bound)
    {leaves : List Nat}
    (inside : ∀ leaf ∈ leaves, leaf < definition.graph.size)
    (session : Session κ τ ω) :
    select definition bound (Rows.ofTable definition.graph definition.table) event leaves
        session =
      some (definition.choose event
        (definition.table.candidatesFrom definition.graph leaves event.trigger) session) := by
  rw [select, Rows.size_byState_ofTable,
    searchFrom_eq forest enough inside (marks_replicate definition.graph.size),
    Table.candidatesFrom, Table.searchOrder_eq_searchOn]

end Search
end Checked
end Statechart
