import Statechart.Graph.Walk

/-!
# Questions about states by key

The same relations as the walks, asked and answered in terms of state keys. A key that
is not in the graph has no relatives.
-/

namespace Statechart
namespace Graph

variable {κ : Type} [DecidableEq κ]

/-- Whether the graph has a state with this key. -/
def contains (graph : Graph κ) (key : κ) : Bool :=
  (graph.indexOf? key).isSome

/-- The keys of the roots in declaration order. -/
def rootKeys (graph : Graph κ) : List κ :=
  graph.keys graph.roots

/-- The key of the state that a state lies in. -/
def parent? (graph : Graph κ) (key : κ) : Option κ :=
  (graph.indexOf? key).bind fun state => (graph.parentOf state).bind graph.key?

/-- The regions of a state: their names and the keys of their children. -/
def regions (graph : Graph κ) (key : κ) : List (String × List κ) :=
  match graph.indexOf? key with
  | none => []
  | some state =>
      (graph.regionsOf state).map fun region => (region.name, graph.keys region.children)

/-- The keys from a state up to its root. -/
def ancestors (graph : Graph κ) (key : κ) : List κ :=
  match graph.indexOf? key with
  | none => []
  | some state => graph.keys (graph.chain state)

/-- Whether the first state lies strictly below the second. -/
def isDescendant (graph : Graph κ) (below above : κ) : Bool :=
  match graph.indexOf? below, graph.indexOf? above with
  | some lower, some upper => lower != upper && graph.isWithin lower upper
  | _, _ => false

/-- The deepest state that contains or equals both states. -/
def lca? (graph : Graph κ) (first second : κ) : Option κ :=
  match graph.indexOf? first, graph.indexOf? second with
  | some left, some right => (graph.meet? left right).bind graph.key?
  | _, _ => none

/-- The keys of the atomic states entered by default below a state. -/
def defaultLeaves (graph : Graph κ) (key : κ) : List κ :=
  match graph.indexOf? key with
  | none => []
  | some state => graph.keys (graph.initialLeaves state)

end Graph
end Statechart
