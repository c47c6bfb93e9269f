import Statechart.Graph.Blueprint
import Statechart.Notification.Basic
import Statechart.Settings
import Statechart.Table

/-!
# Definitions of machines

Everything that a machine is configured with. A definition does not change while the
machine runs.
-/

namespace Statechart

/-- What a machine is configured with. -/
structure Definition (κ τ ω : Type) where
  graph : Graph κ
  table : Table κ τ ω
  /-- What happens on entering and leaving states. -/
  hooks : Hooks κ (StateAction κ τ ω)
  /-- Who is notified, in order. -/
  observers : List (Observer κ τ ω)
  settings : Settings

namespace Definition

variable {κ τ ω : Type} [DecidableEq κ]

/-- What happens on entering a state. -/
def entryAction? (definition : Definition κ τ ω) (state : Nat) :
    Option (StateAction κ τ ω) :=
  (definition.graph.key? state).bind definition.hooks.entry?

/-- What happens on leaving a state. -/
def exitAction? (definition : Definition κ τ ω) (state : Nat) :
    Option (StateAction κ τ ω) :=
  (definition.graph.key? state).bind definition.hooks.exit?

end Definition
end Statechart
