import Statechart.Graph.Validation
import Statechart.Machine.Definition
import Statechart.Transition.Draft

/-!
# Drafts of machines

A draft collects the description of a machine: its chart, its transitions, its observers
and its settings. A draft without problems becomes the definition of a machine. The queue
is checked first, then the chart, then the transitions.
-/

namespace Statechart

/-- A machine in the making. -/
structure MachineDraft (κ τ ω : Type) where
  blueprint : Blueprint κ (StateAction κ τ ω)
  transitions : List (Transition κ τ ω)
  observers : List (Observer κ τ ω)
  settings : Settings

namespace MachineDraft

variable {κ τ ω : Type}

/-- A draft that describes nothing yet. -/
def empty : MachineDraft κ τ ω := ⟨Blueprint.empty, [], [], Settings.standard⟩

/-- Adds a transition as it is. -/
def addTransition (draft : MachineDraft κ τ ω) (transition : Transition κ τ ω) :
    MachineDraft κ τ ω :=
  { draft with transitions := draft.transitions ++ [transition] }

/-- Adds transitions as they are. -/
def addTransitions (draft : MachineDraft κ τ ω) (transitions : List (Transition κ τ ω)) :
    MachineDraft κ τ ω :=
  { draft with transitions := draft.transitions ++ transitions }

/-- Adds an external transition without guard and actions. -/
def addExternal (draft : MachineDraft κ τ ω) (source : κ) (trigger : τ) (target : κ) :
    MachineDraft κ τ ω :=
  draft.addTransition (.external source trigger target)

/-- Adds a transition from its draft, which has to be complete. -/
def transition (draft : MachineDraft κ τ ω) (transition : TransitionDraft κ τ ω) :
    Except ConfigurationError (MachineDraft κ τ ω) := do
  pure (draft.addTransition (← transition.build))

/-- Adds an observer. -/
def observer (draft : MachineDraft κ τ ω) (observer : Observer κ τ ω) :
    MachineDraft κ τ ω :=
  { draft with observers := draft.observers ++ [observer] }

/-- Replaces all settings. -/
def configure (draft : MachineDraft κ τ ω) (settings : Settings) : MachineDraft κ τ ω :=
  { draft with settings }

/-- The definition that a draft describes, or what is wrong with it. -/
def build [DecidableEq κ] [StateKey κ] [Inspect τ] (draft : MachineDraft κ τ ω) :
    Except ConfigurationError (Definition κ τ ω) := do
  if draft.settings.queueCapacity = some 0 then throw .zeroQueueCapacity
  let graph ← draft.blueprint.validate
  let table ← Table.build graph draft.transitions
  pure ⟨graph, table, draft.blueprint.hooks, draft.observers, draft.settings⟩

end MachineDraft
end Statechart
