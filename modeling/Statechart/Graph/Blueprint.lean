import Statechart.Graph.Basic

/-!
# Blueprints

A blueprint is the description of a chart before it has been checked: the declared
states, the initial children, and what happens on entering and leaving a state. The
declarations may come in any order.
-/

namespace Statechart

/-- The region of a child that is declared without one. -/
def defaultRegion : String := "main"

/-- The declaration of one state. -/
structure Declaration (κ : Type) where
  /-- The key of the state. -/
  id : κ
  /-- The key of the state it lies in; a root names none. -/
  parent : Option κ
  /-- The region of the parent that it belongs to. -/
  region : String
  deriving DecidableEq

/-- What happens on entering and on leaving states, in the order of registration. A
later registration for the same state replaces an earlier one. -/
structure Hooks (κ η : Type) where
  /-- Behaviour on entry. -/
  entries : List (κ × η)
  /-- Behaviour on exit. -/
  exits : List (κ × η)

namespace Hooks

variable {κ η : Type}

/-- No behaviour at all. -/
def empty : Hooks κ η := ⟨[], []⟩

/-- The last registration for a key. -/
def last? [DecidableEq κ] (registrations : List (κ × η)) (key : κ) : Option η :=
  (registrations.reverse.find? fun registration => registration.1 == key).map Prod.snd

/-- The behaviour on entering a state. -/
def entry? [DecidableEq κ] (hooks : Hooks κ η) (key : κ) : Option η :=
  last? hooks.entries key

/-- The behaviour on leaving a state. -/
def exit? [DecidableEq κ] (hooks : Hooks κ η) (key : κ) : Option η :=
  last? hooks.exits key

end Hooks

/-- The description of a chart. -/
structure Blueprint (κ η : Type) where
  /-- The declared states, in order. -/
  declarations : List (Declaration κ)
  /-- The designated initial children, each with its parent first. -/
  initials : List (κ × κ)
  /-- The behaviour attached to states. -/
  hooks : Hooks κ η

namespace Blueprint

variable {κ η : Type}

/-- A blueprint that describes nothing yet. -/
def empty : Blueprint κ η := ⟨[], [], Hooks.empty⟩

/-- Declares a state, optionally below a parent and in a named region. -/
def addState
    (blueprint : Blueprint κ η)
    (id : κ)
    (parent : Option κ)
    (region : Option String) : Blueprint κ η :=
  { blueprint with
    declarations := blueprint.declarations ++ [⟨id, parent, region.getD defaultRegion⟩] }

/-- Declares a root. -/
def state (blueprint : Blueprint κ η) (id : κ) : Blueprint κ η :=
  blueprint.addState id none none

/-- Declares a child in the default region of its parent. -/
def substate (blueprint : Blueprint κ η) (id parent : κ) : Blueprint κ η :=
  blueprint.addState id (some parent) none

/-- Declares a child in a named region of its parent. -/
def substateIn
    (blueprint : Blueprint κ η)
    (id parent : κ)
    (region : String) : Blueprint κ η :=
  blueprint.addState id (some parent) (some region)

/-- Designates the initial child of the region that the child belongs to. -/
def initial (blueprint : Blueprint κ η) (parent child : κ) : Blueprint κ η :=
  { blueprint with initials := blueprint.initials ++ [(parent, child)] }

/-- Attaches behaviour to entering a state. -/
def onEntry (blueprint : Blueprint κ η) (state : κ) (behaviour : η) : Blueprint κ η :=
  { blueprint with
    hooks.entries := blueprint.hooks.entries ++ [(state, behaviour)] }

/-- Attaches behaviour to leaving a state. -/
def onExit (blueprint : Blueprint κ η) (state : κ) (behaviour : η) : Blueprint κ η :=
  { blueprint with
    hooks.exits := blueprint.hooks.exits ++ [(state, behaviour)] }

end Blueprint
end Statechart
