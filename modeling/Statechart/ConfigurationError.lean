/-!
# Configuration errors

What can be wrong with the description of a chart, of its transitions or of a machine.
A check collects every problem it finds: one problem is the error itself, several are
bundled in the order in which they were found.
-/

namespace Statechart

/-- A problem with the description of a chart or machine. States are given by name. -/
inductive ConfigurationError
  | emptyGraph
  | duplicateState (state : String)
  | unknownParent (state parent : String)
  | selfParent (state : String)
  | parentCycle (state : String)
  | unknownState (state : String)
  | unknownInitial (parent child : String)
  | initialNotChild (parent child : String)
  | duplicateInitial (parent region : String)
  | missingInitial (parent region : String)
  | unknownTransitionState (state trigger : String)
  | internalTargetMismatch (source target trigger : String)
  | crossTreeTransition (source target : String)
  | missingFromState
  | missingTrigger
  | missingToState
  | zeroQueueCapacity
  | invalid (problems : List ConfigurationError)

namespace ConfigurationError

/-- The problems carried by an error: those of a bundle, or the error itself. -/
def problems : ConfigurationError → List ConfigurationError
  | .invalid problems => problems
  | other => [other]

/-- The text of an error. -/
def message : ConfigurationError → String
  | .emptyGraph => "No states defined. Add at least one state"
  | .duplicateState state => s!"State '{state}' is registered more than once"
  | .unknownParent state parent => s!"State '{state}' names unknown parent '{parent}'"
  | .selfParent state => s!"State '{state}' is its own parent"
  | .parentCycle state => s!"Parent chain of '{state}' forms a cycle"
  | .unknownState state => s!"Entry or exit behavior given for unknown state '{state}'"
  | .unknownInitial parent child =>
      s!"Initial child '{child}' of '{parent}' is not a registered state"
  | .initialNotChild parent child =>
      s!"Initial child '{child}' is not a child of '{parent}'"
  | .duplicateInitial parent region =>
      s!"Region '{region}' of '{parent}' has more than one initial child"
  | .missingInitial parent region =>
      s!"Region '{region}' of '{parent}' has no initial child. Call .initial(parent, child)"
  | .unknownTransitionState state trigger =>
      s!"Transition on trigger {trigger} references unknown state '{state}'"
  | .internalTargetMismatch source target trigger =>
      s!"Internal transition on '{source}' for trigger {trigger} targets " ++
        s!"a different state '{target}'"
  | .crossTreeTransition source target =>
      s!"Transition from '{source}' to '{target}' crosses between separate state trees"
  | .missingFromState => "Transition is missing a source state. Call .from(state)"
  | .missingTrigger => "Transition is missing a trigger. Call .on(trigger)"
  | .missingToState =>
      "External transition is missing a target state. Call .to(state) or .internal()"
  | .zeroQueueCapacity => "Event queue capacity must be at least 1"
  | .invalid problems =>
      let count := problems.length
      s!"Invalid configuration ({count} problems)"

/-- The verdict of a check on the problems it found: none is success, one stands for
itself, several are bundled. -/
def verdict : List ConfigurationError → Except ConfigurationError Unit
  | [] => .ok ()
  | [problem] => .error problem
  | problems => .error (.invalid problems)

@[simp] theorem verdict_nil : verdict [] = .ok () := rfl

@[simp] theorem verdict_singleton (problem : ConfigurationError) :
    verdict [problem] = .error problem := rfl

@[simp] theorem verdict_cons_cons
    (first second : ConfigurationError)
    (others : List ConfigurationError) :
    verdict (first :: second :: others) = .error (.invalid (first :: second :: others)) := rfl

/-- A check succeeds exactly when it found no problem. -/
theorem verdict_eq_ok_iff (problems : List ConfigurationError) :
    verdict problems = .ok () ↔ problems = [] := by
  match problems with
  | [] => simp
  | [_] => simp
  | _ :: _ :: _ => simp

end ConfigurationError
end Statechart
