import Mathlib.Logic.Relation
import Statechart.Graph.Validation

/-!
# What a description of a chart has to meet

A blueprint records the calls that describe a chart. What it has to meet is said here in
terms of the keys in these calls alone, and so is what is wrong with it: every call that
breaks a rule, every state on a cycle of parents and every region without an initial child
counts as one violation. The violations of a later stage only count if there are none of an
earlier one.
-/

namespace Statechart

/-- A call that adds to the description of a chart. -/
inductive BlueprintCall (κ η : Type)
  /-- A state is declared, optionally below a parent and in a named region. -/
  | addState (id : κ) (parent : Option κ) (region : Option String)
  /-- A child is designated as the initial one of its region. -/
  | setInitial (parent child : κ)
  /-- Behaviour is attached to entering a state. -/
  | onEntry (state : κ) (behaviour : η)
  /-- Behaviour is attached to leaving a state. -/
  | onExit (state : κ) (behaviour : η)

namespace BlueprintCall

variable {κ η : Type}

/-- The declaration that a call makes. -/
def declaration? : BlueprintCall κ η → Option (Declaration κ)
  | .addState id parent region => some ⟨id, parent, region.getD defaultRegion⟩
  | _ => none

/-- The parent and the child in a designation. -/
def initial? : BlueprintCall κ η → Option (κ × κ)
  | .setInitial parent child => some (parent, child)
  | _ => none

/-- The behaviour that a call attaches to entering a state. -/
def entry? : BlueprintCall κ η → Option (κ × η)
  | .onEntry state behaviour => some (state, behaviour)
  | _ => none

/-- The behaviour that a call attaches to leaving a state. -/
def exit? : BlueprintCall κ η → Option (κ × η)
  | .onExit state behaviour => some (state, behaviour)
  | _ => none

end BlueprintCall

namespace Blueprint

variable {κ η : Type}

/-- The blueprint after one more call. -/
def extend (blueprint : Blueprint κ η) : BlueprintCall κ η → Blueprint κ η
  | .addState id parent region => blueprint.addState id parent region
  | .setInitial parent child => blueprint.initial parent child
  | .onEntry state behaviour => blueprint.onEntry state behaviour
  | .onExit state behaviour => blueprint.onExit state behaviour

/-- The blueprint after some calls. -/
def ofCalls (calls : List (BlueprintCall κ η)) : Blueprint κ η :=
  calls.foldl extend empty

/-- What some calls add to a blueprint, of each kind in the order of the calls. -/
theorem foldl_extend (blueprint : Blueprint κ η) (calls : List (BlueprintCall κ η)) :
    calls.foldl extend blueprint =
      { declarations := blueprint.declarations ++ calls.filterMap BlueprintCall.declaration?
        initials := blueprint.initials ++ calls.filterMap BlueprintCall.initial?
        hooks :=
          { entries := blueprint.hooks.entries ++ calls.filterMap BlueprintCall.entry?
            exits := blueprint.hooks.exits ++ calls.filterMap BlueprintCall.exit? } } := by
  induction calls generalizing blueprint with
  | nil => simp
  | cons call calls inductionHypothesis =>
      rw [List.foldl_cons, inductionHypothesis]
      cases call <;>
        simp [List.filterMap_cons, extend, addState, initial, onEntry, onExit,
          BlueprintCall.declaration?, BlueprintCall.initial?, BlueprintCall.entry?,
          BlueprintCall.exit?]

/-- A blueprint holds what the calls said, of each kind in the order of the calls. -/
theorem ofCalls_eq (calls : List (BlueprintCall κ η)) :
    ofCalls calls =
      { declarations := calls.filterMap BlueprintCall.declaration?
        initials := calls.filterMap BlueprintCall.initial?
        hooks :=
          { entries := calls.filterMap BlueprintCall.entry?
            exits := calls.filterMap BlueprintCall.exit? } } :=
  foldl_extend empty calls

/-! ## Relations between keys -/

/-- A key is that of a declared state. -/
def IsDeclared (blueprint : Blueprint κ η) (key : κ) : Prop :=
  ∃ declaration ∈ blueprint.declarations, declaration.id = key

/-- A state is declared below a parent, in one of its regions. -/
def LiesIn (blueprint : Blueprint κ η) (child parent : κ) (region : String) : Prop :=
  ∃ declaration ∈ blueprint.declarations,
    declaration.id = child ∧ declaration.parent = some parent ∧ declaration.region = region

/-- A state is declared below a parent. -/
def IsChild (blueprint : Blueprint κ η) (child parent : κ) : Prop :=
  ∃ region, blueprint.LiesIn child parent region

/-- A state lies below another one, by one step or several. -/
def IsBelow (blueprint : Blueprint κ η) : κ → κ → Prop :=
  Relation.TransGen blueprint.IsChild

/-- What a blueprint has to meet to describe a chart. -/
structure IsWellFormed (blueprint : Blueprint κ η) : Prop where
  /-- At least one state is declared. -/
  nonempty : blueprint.declarations ≠ []
  /-- No key is declared twice. -/
  distinct : (blueprint.declarations.map Declaration.id).Nodup
  /-- A parent is another declared state. -/
  parent_declared {declaration : Declaration κ} {parent : κ} :
    declaration ∈ blueprint.declarations → declaration.parent = some parent →
      parent ≠ declaration.id ∧ blueprint.IsDeclared parent
  /-- Behaviour is attached to declared states. -/
  behaviour_declared {registration : κ × η} :
    registration ∈ blueprint.hooks.entries ++ blueprint.hooks.exits →
      blueprint.IsDeclared registration.1
  /-- No state lies below itself. -/
  acyclic (key : κ) : ¬ blueprint.IsBelow key key
  /-- A child is designated under its own parent. -/
  initial_child {parent child : κ} :
    (parent, child) ∈ blueprint.initials → blueprint.IsChild child parent
  /-- Two children designated for one region are the same. -/
  initial_unique {parent first second : κ} {region : String} :
    (parent, first) ∈ blueprint.initials → (parent, second) ∈ blueprint.initials →
      blueprint.LiesIn first parent region → blueprint.LiesIn second parent region →
        first = second
  /-- In every region a child is designated. -/
  initial_given {child parent : κ} {region : String} :
    blueprint.LiesIn child parent region →
      ∃ initial, (parent, initial) ∈ blueprint.initials ∧
        blueprint.LiesIn initial parent region

/-! ## Violations -/

section Violations

variable [DecidableEq κ] [StateKey κ] (blueprint : Blueprint κ η)

open StateKey (name)

omit [StateKey κ] in
instance (key : κ) : Decidable (blueprint.IsDeclared key) :=
  inferInstanceAs (Decidable (∃ declaration ∈ blueprint.declarations, declaration.id = key))

omit [StateKey κ] in
instance (child parent : κ) (region : String) :
    Decidable (blueprint.LiesIn child parent region) :=
  inferInstanceAs (Decidable (∃ declaration ∈ blueprint.declarations,
    declaration.id = child ∧ declaration.parent = some parent ∧ declaration.region = region))

omit [StateKey κ] in
/-- The key declared at some place has been declared at an earlier one. -/
def isRedeclaration (place : Declaration κ × Nat) : Bool :=
  decide (place.1.id ∈ (blueprint.declarations.take place.2).map Declaration.id)

/-- What is wrong with the parent in a declaration. -/
def parentViolation? (declaration : Declaration κ) : Option ConfigurationError :=
  declaration.parent.bind fun parent =>
    if parent = declaration.id then some (.selfParent (name declaration.id))
    else if blueprint.IsDeclared parent then none
    else some (.unknownParent (name declaration.id) (name parent))

/-- Every redeclaration, then every impossible parent in the first declaration of a key, then
all behaviour attached to undeclared states. -/
def structureViolations : List ConfigurationError :=
  let places := blueprint.declarations.zipIdx
  (places.filter blueprint.isRedeclaration).map
      (fun place => .duplicateState (name place.1.id)) ++
    (places.filter fun place => !blueprint.isRedeclaration place).filterMap
      (fun place => blueprint.parentViolation? place.1) ++
    ((blueprint.hooks.entries ++ blueprint.hooks.exits).filter fun registration =>
      !decide (blueprint.IsDeclared registration.1)).map
        fun registration => .unknownState (name registration.1)

open Classical in
/-- Every state that lies below itself. -/
noncomputable def cycleViolations : List ConfigurationError :=
  (blueprint.declarations.filter fun declaration =>
    decide (blueprint.IsBelow declaration.id declaration.id)).map
      fun declaration => .parentCycle (name declaration.id)

omit [StateKey κ] in
/-- The names of the regions below a state, in the order of their first children. -/
def regionsBelow (parent : κ) : List String :=
  ((blueprint.declarations.filter fun declaration =>
    declaration.parent == some parent).map Declaration.region).eraseDups

omit [StateKey κ] in
/-- The child that is the first one designated for a region. -/
def firstInitial? (parent : κ) (region : String) : Option κ :=
  (blueprint.initials.find? fun call =>
    decide (call.1 = parent ∧ blueprint.LiesIn call.2 parent region)).map Prod.snd

/-- What is wrong with the designation of an initial child. -/
def initialViolation? (call : κ × κ) : Option ConfigurationError :=
  if blueprint.IsDeclared call.1 ∧ blueprint.IsDeclared call.2 then
    match blueprint.declarations.find? fun declaration =>
      decide (declaration.id = call.2 ∧ declaration.parent = some call.1) with
    | none => some (.initialNotChild (name call.1) (name call.2))
    | some declaration =>
        if blueprint.firstInitial? call.1 declaration.region = some call.2 then none
        else some (.duplicateInitial (name call.1) declaration.region)
  else some (.unknownInitial (name call.1) (name call.2))

/-- Every bad designation of an initial child, then every region without an initial
child. -/
def initialViolations : List ConfigurationError :=
  blueprint.initials.filterMap blueprint.initialViolation? ++
    blueprint.declarations.flatMap fun declaration =>
      ((blueprint.regionsBelow declaration.id).filter fun region =>
        (blueprint.firstInitial? declaration.id region).isNone).map
          (.missingInitial (name declaration.id))

/-- The violations of the first stage that has any. -/
noncomputable def violations : List ConfigurationError :=
  if blueprint.declarations = [] then [.emptyGraph]
  else if blueprint.structureViolations ≠ [] then blueprint.structureViolations
  else if blueprint.cycleViolations ≠ [] then blueprint.cycleViolations
  else blueprint.initialViolations

end Violations
end Blueprint
end Statechart
