import Statechart.Graph.Walk

/-!
# Configurations

A configuration is the set of active states: those that have been entered and not yet
left. Its leaves are the active states without an active child. A configuration can be
restored from its leaves, also one in which some regions are empty.
-/

namespace Statechart

/-- The set of active states of a graph. -/
structure Configuration where
  /-- For each state, whether it is active. -/
  flags : Array Bool
  deriving DecidableEq

namespace Configuration

variable {κ : Type}

/-- No active state among the given number of states. -/
def empty (size : Nat) : Configuration :=
  ⟨Array.replicate size false⟩

/-- Whether a state is active. -/
def isActive (configuration : Configuration) (state : Nat) : Bool :=
  configuration.flags[state]?.getD false

/-- Makes a state active. -/
def activate (configuration : Configuration) (state : Nat) : Configuration :=
  ⟨configuration.flags.setIfInBounds state true⟩

/-- Makes a state inactive. -/
def deactivate (configuration : Configuration) (state : Nat) : Configuration :=
  ⟨configuration.flags.setIfInBounds state false⟩

/-- The first active child in a region. -/
def activeIn? (configuration : Configuration) (region : Region) : Option Nat :=
  region.children.find? configuration.isActive

/-- Whether a state is active while none of its children is. -/
def isLeaf (graph : Graph κ) (configuration : Configuration) (state : Nat) : Bool :=
  configuration.isActive state && !(graph.childrenOf state).any configuration.isActive

/-- The active leaves in the order of the forest. -/
def leaves (graph : Graph κ) (configuration : Configuration) : List Nat :=
  graph.preorder.filter (configuration.isLeaf graph)

/-- Whether some region of an active state has two active children. -/
def isConflicted (graph : Graph κ) (configuration : Configuration) (state : Nat) : Bool :=
  configuration.isActive state && (graph.regionsOf state).any fun region =>
    1 < (region.children.filter configuration.isActive).length

/-- The states of a list together with everything above them. -/
def above (graph : Graph κ) (states : List Nat) : Configuration :=
  (states.flatMap graph.chain).foldl activate (empty graph.size)

/-- The configuration with the given leaves. The error is a state that rules it out: one
with a doubly filled region, or a listed state that is no leaf. -/
def ofLeaves (graph : Graph κ) (listed : List Nat) : Except Nat Configuration :=
  let configuration := above graph listed
  match (List.range graph.size).find? (configuration.isConflicted graph) with
  | some state => .error state
  | none =>
      let restored := configuration.leaves graph
      match listed.find? fun state => !restored.contains state with
      | some state => .error state
      | none => .ok configuration

@[simp] theorem isActive_empty (size state : Nat) : (empty size).isActive state = false := by
  simp only [isActive, empty]
  by_cases inRange : state < size
  · simp [inRange]
  · simp [inRange]

/-- Activating a state changes that state alone. -/
theorem isActive_activate (configuration : Configuration) (state other : Nat) :
    (configuration.activate state).isActive other =
      if state = other ∧ other < configuration.flags.size then true
      else configuration.isActive other := by
  simp only [isActive, activate, Array.getElem?_setIfInBounds]
  by_cases same : state = other
  · subst same
    by_cases inRange : state < configuration.flags.size <;> simp [inRange]
  · simp [same]

/-- Deactivating a state changes that state alone. -/
theorem isActive_deactivate (configuration : Configuration) (state other : Nat) :
    (configuration.deactivate state).isActive other =
      if state = other then false else configuration.isActive other := by
  simp only [isActive, deactivate, Array.getElem?_setIfInBounds]
  by_cases same : state = other
  · subst same
    by_cases inRange : state < configuration.flags.size <;> simp [inRange]
  · simp [same]

end Configuration
end Statechart
