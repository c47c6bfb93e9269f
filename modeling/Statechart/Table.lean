import Statechart.ConfigurationError
import Statechart.Graph.Walk
import Statechart.Transition.Basic

/-!
# Transition tables

A table holds the transitions of a chart with their states looked up. A transition is
accepted if its states exist, an internal one stays at its source, and both ends lie in
the same tree. For an event, the table gives the candidates in the order in which they
are asked: from the active leaves upwards, every state once.
-/

namespace Statechart

/-- A transition with its states looked up. -/
structure Entry (κ τ ω : Type) where
  transition : Transition κ τ ω
  /-- The source state. -/
  source : Nat
  /-- The target state. -/
  target : Option Nat
  /-- The kind in effect. -/
  kind : TransitionKind

/-- The transitions of a chart in the order in which they were added. -/
structure Table (κ τ ω : Type) where
  entries : List (Entry κ τ ω)

namespace Table

variable {κ τ ω : Type}

/-- A table without transitions. -/
def empty : Table κ τ ω := ⟨[]⟩

/-- The number of transitions. -/
def size (table : Table κ τ ω) : Nat :=
  table.entries.length

section Adding

variable [DecidableEq κ] [StateKey κ] [Inspect τ]

open StateKey (name)

/-- The state of a key that a transition on some trigger refers to. -/
def resolve (graph : Graph κ) (trigger : τ) (key : κ) : Except ConfigurationError Nat :=
  match graph.indexOf? key with
  | some state => .ok state
  | none => .error (.unknownTransitionState (name key) (inspect trigger))

/-- The entry for a transition, or what is wrong with it. -/
def entryOf (graph : Graph κ) (transition : Transition κ τ ω) :
    Except ConfigurationError (Entry κ τ ω) := do
  let source ← resolve graph transition.trigger transition.source
  match transition.target with
  | none => pure ⟨transition, source, none, transition.effectiveKind⟩
  | some key =>
      let target ← resolve graph transition.trigger key
      if transition.effectiveKind = .internal ∧ target ≠ source then
        .error (.internalTargetMismatch (name transition.source) (name key)
          (inspect transition.trigger))
      else if graph.rootOf source ≠ graph.rootOf target then
        .error (.crossTreeTransition (name transition.source) (name key))
      else pure ⟨transition, source, some target, transition.effectiveKind⟩

/-- Adds a transition. A transition with a problem leaves the table as it is. -/
def add (graph : Graph κ) (table : Table κ τ ω) (transition : Transition κ τ ω) :
    Except ConfigurationError (Table κ τ ω) :=
  match entryOf graph transition with
  | .error problem => .error problem
  | .ok entry => .ok ⟨table.entries ++ [entry]⟩

/-- The problems of a list of transitions, one for each bad transition. -/
def problems (graph : Graph κ) (transitions : List (Transition κ τ ω)) :
    List ConfigurationError :=
  transitions.filterMap fun transition =>
    match entryOf graph transition with
    | .error problem => some problem
    | .ok _ => none

/-- The table of a list of transitions, provided none of them has a problem. -/
def build (graph : Graph κ) (transitions : List (Transition κ τ ω)) :
    Except ConfigurationError (Table κ τ ω) := do
  ConfigurationError.verdict (problems graph transitions)
  pure ⟨transitions.filterMap fun transition => (entryOf graph transition).toOption⟩

end Adding

section Searching

variable [DecidableEq τ]

/-- The transitions of a state on a trigger, in the order in which they were added. -/
def entriesFor (table : Table κ τ ω) (state : Nat) (trigger : τ) : List (Entry κ τ ω) :=
  table.entries.filter fun entry =>
    entry.source == state && entry.transition.trigger == trigger

/-- The transitions of the state with a key. -/
def candidates [DecidableEq κ]
    (graph : Graph κ)
    (table : Table κ τ ω)
    (key : κ)
    (trigger : τ) : List (Transition κ τ ω) :=
  match graph.indexOf? key with
  | none => []
  | some state => (table.entriesFor state trigger).map Entry.transition

/-- The states searched for a list of leaves. The way up from each leaf ends at the
first state that has been searched before. -/
def searchOrder (graph : Graph κ) (leaves : List Nat) : List Nat :=
  leaves.foldl
    (fun searched leaf =>
      searched ++ (graph.chain leaf).takeWhile fun state => !searched.contains state)
    []

/-- All transitions that may handle a trigger, in the order in which they are asked. -/
def candidatesFrom
    (graph : Graph κ)
    (table : Table κ τ ω)
    (leaves : List Nat)
    (trigger : τ) : List (Entry κ τ ω) :=
  (searchOrder graph leaves).flatMap fun state => table.entriesFor state trigger

end Searching

@[simp] theorem size_empty : (empty : Table κ τ ω).size = 0 := rfl

end Table
end Statechart
