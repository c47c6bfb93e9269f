import Statechart.Graph.Blueprint

/-!
# Outlines

An outline is a blueprint with its states numbered and its parents resolved. Of several
declarations of one key only the first takes part. The regions of a state and their
children are read off an outline.
-/

namespace Statechart

/-- The numbered states of a blueprint. -/
structure Outline (κ : Type) where
  /-- The keys in declaration order. -/
  ids : Array κ
  /-- The parent of each state. -/
  parents : Array (Option Nat)
  /-- The region of the parent that each state names. -/
  labels : Array String

namespace Outline

variable {κ : Type}

/-- The number of states. -/
def size (outline : Outline κ) : Nat :=
  outline.ids.size

/-- The parent of a state. -/
def parentOf (outline : Outline κ) (state : Nat) : Option Nat :=
  outline.parents[state]?.join

/-- The region that a state names. -/
def labelOf (outline : Outline κ) (state : Nat) : String :=
  outline.labels[state]?.getD ""

/-- The number of a key. -/
def indexOf? [DecidableEq κ] (outline : Outline κ) (key : κ) : Option Nat :=
  outline.ids.findIdx? (· == key)

/-- The name of a state. -/
def nameOf [StateKey κ] (outline : Outline κ) (state : Nat) : String :=
  (outline.ids[state]?.map StateKey.name).getD ""

/-- The children of a state in declaration order. -/
def childrenOf (outline : Outline κ) (state : Nat) : List Nat :=
  (List.range outline.size).filter fun child => outline.parentOf child == some state

/-- The names of the regions of a state, in the order of their first children. -/
def regionNames (outline : Outline κ) (state : Nat) : List String :=
  ((outline.childrenOf state).map outline.labelOf).eraseDups

/-- The children of a state in one of its regions, in declaration order. -/
def regionChildren (outline : Outline κ) (state : Nat) (region : String) : List Nat :=
  (outline.childrenOf state).filter fun child => outline.labelOf child == region

/-- The place of a state's region among the regions of its parent; a root has the first
place. -/
def regionIndex (outline : Outline κ) (state : Nat) : Nat :=
  match outline.parentOf state with
  | none => 0
  | some parent => (outline.regionNames parent).idxOf (outline.labelOf state)

/-- The roots in declaration order. -/
def roots (outline : Outline κ) : List Nat :=
  (List.range outline.size).filter fun state => (outline.parentOf state).isNone

/-- Whether following parents for a number of steps leads back to a state. -/
def returnsWithin (outline : Outline κ) (start : Nat) : Nat → Option Nat → Bool
  | 0, _ => false
  | _ + 1, none => false
  | steps + 1, some state =>
      state == start || outline.returnsWithin start steps (outline.parentOf state)

/-- Whether a state lies on a cycle of parents. -/
def isOnCycle (outline : Outline κ) (state : Nat) : Bool :=
  outline.returnsWithin state outline.size (outline.parentOf state)

end Outline

namespace Blueprint

variable {κ η : Type} [DecidableEq κ]

/-- The declarations that are the first of their key, skipping the keys already seen. -/
def firstsAfter (seen : List κ) : List (Declaration κ) → List (Declaration κ)
  | [] => []
  | declaration :: others =>
      if declaration.id ∈ seen then firstsAfter seen others
      else declaration :: firstsAfter (declaration.id :: seen) others

/-- The declarations whose key has been declared before, given the keys already seen. -/
def repeatsAfter (seen : List κ) : List (Declaration κ) → List (Declaration κ)
  | [] => []
  | declaration :: others =>
      if declaration.id ∈ seen then declaration :: repeatsAfter seen others
      else repeatsAfter (declaration.id :: seen) others

/-- The first declaration of each key. -/
def firsts (blueprint : Blueprint κ η) : List (Declaration κ) :=
  firstsAfter [] blueprint.declarations

/-- The declarations of keys that were declared before. -/
def repeats (blueprint : Blueprint κ η) : List (Declaration κ) :=
  repeatsAfter [] blueprint.declarations

/-- The numbered states of a blueprint. A parent that is not declared is left out. -/
def outline (blueprint : Blueprint κ η) : Outline κ :=
  let declared := blueprint.firsts
  let ids := (declared.map Declaration.id).toArray
  { ids
    parents := (declared.map fun declaration =>
      declaration.parent.bind fun parent => ids.findIdx? (· == parent)).toArray
    labels := (declared.map Declaration.region).toArray }

end Blueprint
end Statechart
