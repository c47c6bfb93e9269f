import Statechart.ConfigurationError
import Statechart.Graph.Outline

/-!
# Checking a blueprint

A blueprint is checked in stages, and the first stage with problems decides. Structure
comes first: repeated keys, impossible parents, behaviour for unknown states. Then no
state may lie on a cycle of parents. Last, every region needs one initial child. A
blueprint that passes all stages describes a graph.
-/

namespace Statechart
namespace Blueprint

variable {κ η : Type} [DecidableEq κ] [StateKey κ]

open StateKey (name)

/-- The problem with the parent of a declaration, if there is one. -/
def parentProblem?
    (outline : Outline κ)
    (declaration : Declaration κ) : Option ConfigurationError :=
  match declaration.parent with
  | none => none
  | some parent =>
      if parent = declaration.id then some (.selfParent (name declaration.id))
      else if (outline.indexOf? parent).isSome then none
      else some (.unknownParent (name declaration.id) (name parent))

/-- Repeated keys, then impossible parents, then behaviour for unknown states. -/
def structureProblems (blueprint : Blueprint κ η) : List ConfigurationError :=
  let outline := blueprint.outline
  (blueprint.repeats.map fun declaration => .duplicateState (name declaration.id)) ++
    blueprint.firsts.filterMap (parentProblem? outline) ++
    ((blueprint.hooks.entries ++ blueprint.hooks.exits).filter fun registration =>
      (outline.indexOf? registration.1).isNone).map fun registration =>
        .unknownState (name registration.1)

/-- One problem for every state on a cycle of parents. -/
def cycleProblems (blueprint : Blueprint κ η) : List ConfigurationError :=
  let outline := blueprint.outline
  ((List.range outline.size).filter outline.isOnCycle).map fun state =>
    .parentCycle (outline.nameOf state)

/-- The numbers of a parent and its designated child, or what is wrong with the pair. -/
def resolveInitial
    (outline : Outline κ)
    (call : κ × κ) : Except ConfigurationError (Nat × Nat) :=
  match outline.indexOf? call.1, outline.indexOf? call.2 with
  | some parent, some child =>
      if outline.parentOf child = some parent then .ok (parent, child)
      else .error (.initialNotChild (name call.1) (name call.2))
  | _, _ => .error (.unknownInitial (name call.1) (name call.2))

/-- The well-formed designations in order, as pairs of parent and child. -/
def designations (blueprint : Blueprint κ η) (outline : Outline κ) : List (Nat × Nat) :=
  blueprint.initials.filterMap fun call => (resolveInitial outline call).toOption

/-- The first child designated for a region of a state. -/
def initialOf?
    (outline : Outline κ)
    (designations : List (Nat × Nat))
    (state : Nat)
    (region : String) : Option Nat :=
  (designations.find? fun designation =>
    designation.1 == state && outline.labelOf designation.2 == region).map Prod.snd

/-- The problem with one designation: a bad pair of keys, or a region that already has a
different initial child. -/
def designationProblem?
    (outline : Outline κ)
    (designations : List (Nat × Nat))
    (call : κ × κ) : Option ConfigurationError :=
  match resolveInitial outline call with
  | .error problem => some problem
  | .ok (parent, child) =>
      let region := outline.labelOf child
      if initialOf? outline designations parent region = some child then none
      else some (.duplicateInitial (name call.1) region)

/-- One problem for every bad designation, then one for every region without an initial
child. -/
def initialProblems (blueprint : Blueprint κ η) : List ConfigurationError :=
  let outline := blueprint.outline
  let designations := blueprint.designations outline
  blueprint.initials.filterMap (designationProblem? outline designations) ++
    (List.range outline.size).flatMap fun state =>
      ((outline.regionNames state).filter fun region =>
        (initialOf? outline designations state region).isNone).map fun region =>
          .missingInitial (outline.nameOf state) region

/-- The regions of a state that have an initial child. -/
def regionsOf
    (outline : Outline κ)
    (designations : List (Nat × Nat))
    (state : Nat) : List Region :=
  (outline.regionNames state).filterMap fun region =>
    (initialOf? outline designations state region).map fun initial =>
      ⟨region, outline.regionChildren state region, initial⟩

/-- The graph that a blueprint describes. -/
def graph (blueprint : Blueprint κ η) : Graph κ :=
  let outline := blueprint.outline
  let designations := blueprint.designations outline
  { nodes := outline.ids.mapIdx fun state id =>
      { id
        parent := outline.parentOf state
        region := outline.regionIndex state
        regions := regionsOf outline designations state }
    roots := outline.roots }

/-- Checks a blueprint and gives the graph that it describes. -/
def validate (blueprint : Blueprint κ η) : Except ConfigurationError (Graph κ) :=
  if blueprint.declarations.isEmpty then .error .emptyGraph
  else do
    ConfigurationError.verdict blueprint.structureProblems
    ConfigurationError.verdict blueprint.cycleProblems
    ConfigurationError.verdict blueprint.initialProblems
    pure blueprint.graph

end Blueprint
end Statechart
