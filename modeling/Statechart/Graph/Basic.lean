import Statechart.StateKey

/-!
# State graphs

A state graph is a forest. Each root starts an independent tree, and a composite state
groups its children into one or more orthogonal regions. States are stored in the order
in which they were declared and are referred to by their position in that order.
-/

namespace Statechart

/-- An orthogonal group of children inside a composite state. -/
structure Region where
  /-- The name given to the region when its children were declared. -/
  name : String
  /-- The children in declaration order. -/
  children : List Nat
  /-- The child that is entered by default. -/
  initial : Nat
  deriving DecidableEq

/-- A state of a graph. -/
structure Node (κ : Type) where
  /-- The key of the state. -/
  id : κ
  /-- The state it lies in; a root has none. -/
  parent : Option Nat
  /-- Which region of the parent holds the state. -/
  region : Nat
  /-- The regions of the state; an atomic state has none. -/
  regions : List Region
  deriving DecidableEq

/-- A hierarchy of states. -/
structure Graph (κ : Type) where
  /-- All states in declaration order. -/
  nodes : Array (Node κ)
  /-- The states without a parent, in declaration order. -/
  roots : List Nat

namespace Graph

variable {κ : Type}

/-- The number of states. -/
def size (graph : Graph κ) : Nat :=
  graph.nodes.size

/-- The key of a state. -/
def key? (graph : Graph κ) (state : Nat) : Option κ :=
  graph.nodes[state]?.map Node.id

/-- The keys of a list of states. -/
def keys (graph : Graph κ) (states : List Nat) : List κ :=
  states.filterMap graph.key?

/-- The state that a state lies in. -/
def parentOf (graph : Graph κ) (state : Nat) : Option Nat :=
  graph.nodes[state]?.bind Node.parent

/-- Which region of its parent holds a state. -/
def regionOf (graph : Graph κ) (state : Nat) : Nat :=
  (graph.nodes[state]?.map Node.region).getD 0

/-- The regions of a state. -/
def regionsOf (graph : Graph κ) (state : Nat) : List Region :=
  (graph.nodes[state]?.map Node.regions).getD []

/-- All children of a state, region by region. -/
def childrenOf (graph : Graph κ) (state : Nat) : List Nat :=
  (graph.regionsOf state).flatMap Region.children

/-- The position of the state with the given key. -/
def indexOf? [DecidableEq κ] (graph : Graph κ) (key : κ) : Option Nat :=
  graph.nodes.findIdx? fun node => node.id == key

/-- The name of a state, empty for a position outside the graph. -/
def nameOf [StateKey κ] (graph : Graph κ) (state : Nat) : String :=
  ((graph.key? state).map StateKey.name).getD ""

@[simp] theorem keys_nil (graph : Graph κ) : graph.keys [] = [] := rfl

end Graph
end Statechart
