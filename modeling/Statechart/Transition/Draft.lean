import Statechart.ConfigurationError
import Statechart.Transition.Basic

/-!
# Drafts of transitions

A draft collects the parts of a transition in any order. A later part replaces an
earlier one of the same sort, except that actions add up. A complete draft becomes a
transition.
-/

namespace Statechart

/-- A transition in the making. -/
structure TransitionDraft (κ τ ω : Type) where
  source : Option κ
  trigger : Option τ
  target : Option κ
  guard : Option (Guard κ τ ω)
  actions : List (Action κ τ ω)
  /-- Whether the transition is declared to be internal. -/
  isInternal : Bool

namespace TransitionDraft

variable {κ τ ω : Type}

/-- A draft without any parts. -/
def empty : TransitionDraft κ τ ω := ⟨none, none, none, none, [], false⟩

/-- Sets the source. -/
def leaving (draft : TransitionDraft κ τ ω) (source : κ) : TransitionDraft κ τ ω :=
  { draft with source := some source }

/-- Sets the trigger. -/
def triggeredBy (draft : TransitionDraft κ τ ω) (trigger : τ) : TransitionDraft κ τ ω :=
  { draft with trigger := some trigger }

/-- Sets the target. -/
def entering (draft : TransitionDraft κ τ ω) (target : κ) : TransitionDraft κ τ ω :=
  { draft with target := some target }

/-- Declares the transition to be internal. -/
def internal (draft : TransitionDraft κ τ ω) : TransitionDraft κ τ ω :=
  { draft with isInternal := true }

/-- Sets the guard. -/
def guarded (draft : TransitionDraft κ τ ω) (guard : Guard κ τ ω) : TransitionDraft κ τ ω :=
  { draft with guard := some guard }

/-- Adds an action. -/
def action (draft : TransitionDraft κ τ ω) (action : Action κ τ ω) :
    TransitionDraft κ τ ω :=
  { draft with actions := draft.actions ++ [action] }

/-- The transition of a complete draft. The first missing part is the error. -/
def build (draft : TransitionDraft κ τ ω) :
    Except ConfigurationError (Transition κ τ ω) :=
  match draft.source, draft.trigger with
  | none, _ => .error .missingFromState
  | some _, none => .error .missingTrigger
  | some source, some trigger =>
      if !draft.isInternal && draft.target.isNone then .error .missingToState
      else
        .ok ⟨source, draft.target, trigger, draft.guard, draft.actions,
          if draft.isInternal then .internal else .external⟩

end TransitionDraft
end Statechart
