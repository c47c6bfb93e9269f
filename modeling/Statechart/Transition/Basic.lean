import Statechart.Behaviour
import Statechart.StateKey

/-!
# Transitions

A transition leads from a source state, on a trigger, to a target state. An external
transition leaves and enters states. An internal one only runs its actions; without a
target every transition is internal.
-/

namespace Statechart

/-- Whether a transition leaves and enters states. -/
inductive TransitionKind
  | external
  | internal
  deriving DecidableEq

instance : Inspect TransitionKind where
  inspect
    | .external => "External"
    | .internal => "Internal"

/-- A transition as it was described. -/
structure Transition (κ τ ω : Type) where
  source : κ
  target : Option κ
  trigger : τ
  guard : Option (Guard κ τ ω)
  actions : List (Action κ τ ω)
  kind : TransitionKind

namespace Transition

variable {κ τ ω : Type}

/-- An external transition without guard and actions. -/
def external (source : κ) (trigger : τ) (target : κ) : Transition κ τ ω :=
  ⟨source, some target, trigger, none, [], .external⟩

/-- An internal transition without guard and actions. -/
def internal (source : κ) (trigger : τ) : Transition κ τ ω :=
  ⟨source, none, trigger, none, [], .internal⟩

/-- The kind of a transition in effect: without a target it is internal. -/
def effectiveKind (transition : Transition κ τ ω) : TransitionKind :=
  if transition.target.isNone then .internal else transition.kind

/-- A transition in words: its source, trigger and target. -/
def describe [StateKey κ] [Inspect τ] (transition : Transition κ τ ω) : String :=
  let start := StateKey.name transition.source ++ " --" ++ inspect transition.trigger
  match transition.target with
  | some target => start ++ "--> " ++ StateKey.name target
  | none => start ++ "--|"

instance [StateKey κ] [Inspect τ] : Inspect (Transition κ τ ω) where
  inspect transition :=
    inspectRecord "Transition"
      [("source", inspect transition.source), ("target", inspect transition.target),
        ("trigger", inspect transition.trigger), ("guard", inspect transition.guard),
        ("actions", inspect transition.actions.length), ("kind", inspect transition.kind)]

end Transition
end Statechart
