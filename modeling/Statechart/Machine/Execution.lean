import Statechart.Configuration.Plan
import Statechart.Machine.Definition
import Statechart.Machine.Session

/-!
# Carrying out transitions

To select a transition, the guards of the candidates are asked in order until one allows
its transition. To carry it out, its steps are taken one by one: states are left, actions
run, states are entered. The first step that fails ends the transition, and what was
done until then stays done.
-/

namespace Statechart
namespace Definition

variable {κ τ ω : Type} [DecidableEq κ] [StateKey κ] [Inspect τ]

/-- Asks the guard of an entry about an event. An entry without a guard is allowed. -/
def consult
    (session : Session κ τ ω)
    (entry : Entry κ τ ω)
    (event : Event τ) : Except GuardFault Bool × Session κ τ ω :=
  match entry.transition.guard with
  | none => (.ok true, session)
  | some guard =>
      let (verdict, session) := session.call (guard.evaluate event.payload)
      (verdict, session.note (.asked entry.source verdict))

/-- The first entry that is allowed, with the faults of the guards asked before it. -/
def choose
    (definition : Definition κ τ ω)
    (event : Event τ) :
    List (Entry κ τ ω) → Session κ τ ω →
      Option (Entry κ τ ω) × List StepError × Session κ τ ω
  | [], session => (none, [], session)
  | entry :: entries, session =>
      let (verdict, session) := consult session entry event
      match verdict with
      | .ok true => (some entry, [], session.note (.selected entry.transition.describe))
      | .ok false => definition.choose event entries session
      | .error fault =>
          let (chosen, faults, session) := definition.choose event entries session
          let state := definition.graph.nameOf entry.source
          (chosen, .ofGuardFault state (inspect event.trigger) fault :: faults, session)

/-- Runs a state action that may be missing. -/
def runStateAction
    (session : Session κ τ ω)
    (action : Option (StateAction κ τ ω)) : Except Failure Unit × Session κ τ ω :=
  match action with
  | none => (.ok (), session)
  | some action => session.call action.invoke

/-- Runs what belongs to a step: the exit or entry action of a state, or an action of the
transition from the given source. -/
def attempt
    (definition : Definition κ τ ω)
    (source : Nat)
    (actions : List (Action κ τ ω))
    (event : Event τ)
    (session : Session κ τ ω) : Step → Except StepError Unit × Session κ τ ω
  | .exit state =>
      let (result, session) := runStateAction session (definition.exitAction? state)
      (result.mapError (.exitFailed (definition.graph.nameOf state)), session)
  | .act position =>
      match actions[position]? with
      | none => (.ok (), session)
      | some action =>
          let (result, session) := session.call (action.invoke event.payload)
          (result.mapError
            (.actionFailed (definition.graph.nameOf source) (inspect event.trigger)), session)
  | .enter state =>
      let (result, session) := runStateAction session (definition.entryAction? state)
      (result.mapError (.entryFailed (definition.graph.nameOf state)), session)

end Definition

namespace Step

/-- What a completed step does to the set of active states. -/
def apply (configuration : Configuration) : Step → Configuration
  | .exit state => configuration.deactivate state
  | .act _ => configuration
  | .enter state => configuration.activate state

end Step

/-- How far a run of steps came. -/
structure Progress (κ τ ω : Type) where
  /-- The failure that ended it. -/
  failure : Option StepError
  configuration : Configuration
  session : Session κ τ ω

/-- Takes steps one by one up to the first failure. -/
def takeSteps
    (attempt : Session κ τ ω → Step → Except StepError Unit × Session κ τ ω) :
    List Step → Configuration → Session κ τ ω → Progress κ τ ω
  | [], configuration, session => ⟨none, configuration, session⟩
  | step :: steps, configuration, session =>
      match attempt session step with
      | (.error error, session) =>
          ⟨some error, configuration, session.note (.failed step error)⟩
      | (.ok (), session) =>
          takeSteps attempt steps (step.apply configuration) (session.note (.completed step))

namespace Definition

variable {κ τ ω : Type} [DecidableEq κ] [StateKey κ] [Inspect τ]

/-- The steps that run the actions of a transition. -/
def actionSteps (entry : Entry κ τ ω) : List Step :=
  (List.range entry.transition.actions.length).map .act

/-- The plan of an entry: an external one with a target leaves and enters states, any
other does not. -/
def planOf?
    (definition : Definition κ τ ω)
    (configuration : Configuration)
    (entry : Entry κ τ ω) : Option Plan :=
  match entry.kind, entry.target with
  | .external, some target =>
      some (Plan.external definition.graph configuration entry.source target)
  | _, _ => none

/-- The steps of an entry with its plan. -/
def stepsOf (entry : Entry κ τ ω) : Option Plan → List Step
  | none => actionSteps entry
  | some plan => plan.exits.map .exit ++ actionSteps entry ++ plan.entries.map .enter

/-- Carries out a selected transition. -/
def execute
    (definition : Definition κ τ ω)
    (entry : Entry κ τ ω)
    (event : Event τ)
    (configuration : Configuration)
    (session : Session κ τ ω) : Progress κ τ ω :=
  let plan := definition.planOf? configuration entry
  let session := match plan with
    | none => session
    | some plan =>
        session.note (.planned (definition.graph.keys plan.exits)
          (definition.graph.keys plan.entries))
  takeSteps (definition.attempt entry.source entry.transition.actions event)
    (stepsOf entry plan) configuration session

end Definition
end Statechart
