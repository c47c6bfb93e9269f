import Statechart.Graph.Basic

/-!
# Walks through a state graph

Upward walks follow parents and downward walks follow initial children. Every walk is
bounded by the number of states, which no walk through a forest can exceed.
-/

namespace Statechart
namespace Graph

variable {κ : Type}

/-- The first states on the way up from a state, at most as many as the bound allows. -/
def chainWithin (graph : Graph κ) : Nat → Nat → List Nat
  | 0, _ => []
  | bound + 1, state =>
      state :: match graph.parentOf state with
        | none => []
        | some parent => graph.chainWithin bound parent

/-- A state and everything above it, ending with its root. -/
def chain (graph : Graph κ) (state : Nat) : List Nat :=
  graph.chainWithin graph.size state

/-- Whether the way up from a state meets another one within a number of steps. -/
def reachesWithin (graph : Graph κ) (above : Nat) : Nat → Nat → Bool
  | 0, _ => false
  | bound + 1, state =>
      state == above || match graph.parentOf state with
        | none => false
        | some parent => graph.reachesWithin above bound parent

/-- Whether a state equals another one or lies below it. -/
def isWithin (graph : Graph κ) (state above : Nat) : Bool :=
  graph.reachesWithin above graph.size state

/-- The deepest state that two states have in common among themselves and the states
above them. -/
def meet? (graph : Graph κ) (first second : Nat) : Option Nat :=
  (graph.chain first).find? fun candidate => (graph.chain second).contains candidate

/-- The last state on the way up within a number of steps. -/
def topWithin (graph : Graph κ) : Nat → Nat → Nat
  | 0, state => state
  | bound + 1, state =>
      match graph.parentOf state with
      | none => state
      | some parent => graph.topWithin bound parent

/-- The root of the tree that holds a state. -/
def rootOf (graph : Graph κ) (state : Nat) : Nat :=
  graph.topWithin graph.size state

/-- The state directly below `above` on the way up, within a number of steps. -/
def stepBelowWithin (graph : Graph κ) (above : Nat) : Nat → Nat → Option Nat
  | 0, _ => none
  | bound + 1, state =>
      match graph.parentOf state with
      | none => none
      | some parent =>
          if parent = above then some state else graph.stepBelowWithin above bound parent

/-- The child of `above` on the way down to a state below it. -/
def childToward? (graph : Graph κ) (above below : Nat) : Option Nat :=
  graph.stepBelowWithin above graph.size below

/-- The atomic states reached from a state through initial children, to a bounded
depth. -/
def initialLeavesWithin (graph : Graph κ) : Nat → Nat → List Nat
  | 0, _ => []
  | bound + 1, state =>
      match graph.regionsOf state with
      | [] => [state]
      | regions => regions.flatMap fun region => graph.initialLeavesWithin bound region.initial

/-- The atomic states that become active when a state is entered, following the initial
child in every region. -/
def initialLeaves (graph : Graph κ) (state : Nat) : List Nat :=
  graph.initialLeavesWithin graph.size state

/-- A state followed by everything below it, depth first and region by region, to a
bounded depth. -/
def preorderWithin (graph : Graph κ) : Nat → Nat → List Nat
  | 0, _ => []
  | bound + 1, state =>
      state :: (graph.childrenOf state).flatMap (graph.preorderWithin bound)

/-- All states in depth-first order, tree by tree. -/
def preorder (graph : Graph κ) : List Nat :=
  graph.roots.flatMap (graph.preorderWithin graph.size)

/-- The place of a state in the depth-first order of the forest. -/
def orderOf (graph : Graph κ) (state : Nat) : Nat :=
  graph.preorder.idxOf state

/-- What is known while states are being numbered. -/
structure Count where
  /-- The number of each state, which is zero until the state has been met. -/
  numbers : Array Nat
  /-- The number that the next state gets. -/
  next : Nat

/-- A state that is met gets the next number. -/
def Count.meet (count : Count) (state : Nat) : Count where
  numbers := count.numbers.setIfInBounds state count.next
  next := count.next + 1

/-- A state is met, and then everything below it, depth first and region by region, to a
bounded depth. -/
def countFrom (graph : Graph κ) : Nat → Count → Nat → Count
  | 0, count, _ => count
  | bound + 1, count, state =>
      (graph.childrenOf state).foldl (graph.countFrom bound) (count.meet state)

/-- The numbers that the states get when all of them are counted, tree by tree. -/
def numbers (graph : Graph κ) : Array Nat :=
  (graph.roots.foldl (graph.countFrom graph.size) ⟨.replicate graph.size 0, 0⟩).numbers

@[simp] theorem chainWithin_zero (graph : Graph κ) (state : Nat) :
    graph.chainWithin 0 state = [] := rfl

theorem chainWithin_succ (graph : Graph κ) (bound state : Nat) :
    graph.chainWithin (bound + 1) state =
      state :: match graph.parentOf state with
        | none => []
        | some parent => graph.chainWithin bound parent := rfl

theorem initialLeavesWithin_succ (graph : Graph κ) (bound state : Nat) :
    graph.initialLeavesWithin (bound + 1) state =
      match graph.regionsOf state with
      | [] => [state]
      | regions =>
          regions.flatMap fun region => graph.initialLeavesWithin bound region.initial := rfl

end Graph
end Statechart
