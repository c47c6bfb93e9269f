import Statechart.Configuration.Basic

/-!
# Plans

A plan says which states an external transition leaves and enters, and in which order.
It concerns the part of the forest between the domain of the transition and its ends:
only the regions of the domain that hold an end are left and entered again.
-/

namespace Statechart

/-- The states that a transition leaves and enters. -/
structure Plan where
  /-- The states to leave, the deepest first. -/
  exits : List Nat
  /-- The states to enter, the outermost first. -/
  entries : List Nat
  deriving DecidableEq

namespace Plan

variable {κ : Type}

/-- The active part below a state and the state itself, children before parents, to a
bounded depth. -/
def exitsWithin (graph : Graph κ) (configuration : Configuration) : Nat → Nat → List Nat
  | 0, _ => []
  | bound + 1, state =>
      (graph.regionsOf state).flatMap
        (fun region =>
          match configuration.activeIn? region with
          | none => []
          | some child => exitsWithin graph configuration bound child) ++
        [state]

/-- The active part below a state and the state itself, children before parents. -/
def exitsBelow (graph : Graph κ) (configuration : Configuration) (state : Nat) : List Nat :=
  exitsWithin graph configuration graph.size state

/-- The states entered with a state, to a bounded depth: along a path in the regions
that the path leads into, and through initial children everywhere else. -/
def entriesWithin (graph : Graph κ) : Nat → Nat → List Nat → List Nat
  | 0, _, _ => []
  | bound + 1, state, path =>
      state :: (graph.regionsOf state).zipIdx.flatMap fun (region, index) =>
        match path with
        | [] => entriesWithin graph bound region.initial []
        | next :: rest =>
            if graph.regionOf next = index then entriesWithin graph bound next rest
            else entriesWithin graph bound region.initial []

/-- The states entered with a state along a path below it. -/
def entriesAlong (graph : Graph κ) (state : Nat) (path : List Nat) : List Nat :=
  entriesWithin graph graph.size state path

/-- The state whose subtree a transition leaves and enters again; none stands for the
whole tree. It is the deepest state above or at both ends, but a target that is the
source or lies above it is itself left and entered. -/
def domain? (graph : Graph κ) (source target : Nat) : Option Nat :=
  if graph.isWithin source target then graph.parentOf target
  else graph.meet? source target

/-- The states strictly below another one on the way down to a target; without the other
one, the way starts at the root. -/
def pathBelow (graph : Graph κ) (above : Option Nat) (target : Nat) : List Nat :=
  ((graph.chain target).takeWhile fun state => some state != above).reverse

/-- The regions of the domain that hold an end of a transition, in order. -/
def affectedRegions (graph : Graph κ) (domain source target : Nat) : List Nat :=
  let touched := ([source, target].filterMap (graph.childToward? domain)).map graph.regionOf
  (List.range (graph.regionsOf domain).length).filter touched.contains

/-- The plan of a transition that leaves and enters a whole tree. -/
def wholeTree (graph : Graph κ) (configuration : Configuration) (target : Nat) : Plan where
  exits :=
    let root := graph.rootOf target
    if configuration.isActive root then exitsBelow graph configuration root else []
  entries :=
    match pathBelow graph none target with
    | [] => []
    | first :: rest => entriesAlong graph first rest

/-- The states left in one region of the domain. -/
def exitsIn
    (graph : Graph κ)
    (configuration : Configuration)
    (domain region : Nat) : List Nat :=
  match (graph.regionsOf domain)[region]?.bind configuration.activeIn? with
  | none => []
  | some child => exitsBelow graph configuration child

/-- The states entered in one region of the domain, along the path where it leads into
that region. -/
def entriesIn (graph : Graph κ) (domain region : Nat) (path : List Nat) : List Nat :=
  let byDefault := match (graph.regionsOf domain)[region]? with
    | none => []
    | some held => entriesAlong graph held.initial []
  match path with
  | [] => byDefault
  | next :: rest =>
      if graph.regionOf next = region then entriesAlong graph next rest else byDefault

/-- The plan of an external transition from a source to a target. -/
def external
    (graph : Graph κ)
    (configuration : Configuration)
    (source target : Nat) : Plan :=
  match domain? graph source target with
  | none => wholeTree graph configuration target
  | some domain =>
      let regions := affectedRegions graph domain source target
      let path := pathBelow graph (some domain) target
      { exits := regions.flatMap (exitsIn graph configuration domain)
        entries := regions.flatMap fun region => entriesIn graph domain region path }

/-- The states entered at the start: every root with what lies below it by default. -/
def initial (graph : Graph κ) : List Nat :=
  graph.roots.flatMap fun root => entriesAlong graph root []

/-- The states left at the end: everything that is active. -/
def shutdown (graph : Graph κ) (configuration : Configuration) : List Nat :=
  (graph.roots.filter configuration.isActive).flatMap (exitsBelow graph configuration)

end Plan
end Statechart
