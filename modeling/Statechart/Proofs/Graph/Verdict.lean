import Statechart.Proofs.Graph.Diagnosis

/-!
# The verdict on a blueprint

A blueprint without violations is a well-formed one, so the check accepts exactly the
well-formed blueprints. Any other blueprint is refused, and the error tells of all violations
of the first stage that has any, each of them once and in order.
-/

namespace Statechart

/-- A check that found problems ends with them, whatever was to follow. -/
theorem ConfigurationError.verdict_bind_of_ne_nil
    {α : Type}
    {problems : List ConfigurationError}
    (found : problems ≠ [])
    (next : Unit → Except ConfigurationError α)
    (result : α) :
    (verdict problems >>= next) = (verdict problems).map fun _ => result := by
  match problems with
  | [] => contradiction
  | [_] => rfl
  | _ :: _ :: _ => rfl

/-- The problems of a verdict on problems that are no bundles are these problems. -/
theorem ConfigurationError.problems_of_verdict_eq_error
    {problems : List ConfigurationError}
    {error : ConfigurationError}
    (single : ∀ problem ∈ problems, problem.problems = [problem])
    (refused : verdict problems = .error error) :
    error.problems = problems := by
  match problems with
  | [] => contradiction
  | [_] =>
      cases refused
      exact single error List.mem_cons_self
  | _ :: _ :: _ =>
      cases refused
      rfl

namespace Blueprint

variable {κ η : Type} [DecidableEq κ]

section Structure

variable (blueprint : Blueprint κ η)

/-- Keys are distinct exactly if none is declared again. -/
theorem nodup_ids_iff :
    (blueprint.declarations.map Declaration.id).Nodup ↔
      ∀ place ∈ blueprint.declarations.zipIdx, blueprint.isRedeclaration place = false := by
  constructor
  · exact fun distinct place member => isRedeclaration_eq_false distinct member
  · intro new
    have all_first : blueprint.firsts = blueprint.declarations := by
      rw [firsts, (repeatsAfter_firstsAfter_eq [] blueprint.declarations).2,
        List.filter_eq_self.mpr, List.zipIdx_map_fst]
      intro place member
      rw [Bool.not_eq_true']
      exact new place member
    rw [← all_first]
    exact (firstsAfter_distinct [] blueprint.declarations).1

variable [StateKey κ]

/-- The parent in a declaration is all right exactly if it is another declared state. -/
theorem parentViolation?_eq_none_iff (declaration : Declaration κ) :
    blueprint.parentViolation? declaration = none ↔
      ∀ parent, declaration.parent = some parent →
        parent ≠ declaration.id ∧ blueprint.IsDeclared parent := by
  rw [parentViolation?]
  cases declaration.parent with
  | none => simp
  | some parent => simp [ite_eq_iff]

/-- Without violations of the structure keys are distinct, parents are other declared states
and behaviour is attached to declared states. -/
theorem structureViolations_eq_nil_iff :
    blueprint.structureViolations = [] ↔
      (blueprint.declarations.map Declaration.id).Nodup ∧
      (∀ declaration ∈ blueprint.declarations, ∀ parent, declaration.parent = some parent →
        parent ≠ declaration.id ∧ blueprint.IsDeclared parent) ∧
      ∀ registration ∈ blueprint.hooks.entries ++ blueprint.hooks.exits,
        blueprint.IsDeclared registration.1 := by
  rw [nodup_ids_iff]
  simp only [structureViolations, List.append_eq_nil_iff, List.map_eq_nil_iff,
    List.filter_eq_nil_iff, List.filterMap_eq_nil_iff, Bool.not_eq_true, and_assoc]
  refine and_congr_right fun new => and_congr ?_ ?_
  · have all_first : (blueprint.declarations.zipIdx.filter fun place =>
        !blueprint.isRedeclaration place) = blueprint.declarations.zipIdx :=
      List.filter_eq_self.mpr fun place member => by rw [new place member, Bool.not_false]
    simp only [all_first, parentViolation?_eq_none_iff]
    constructor
    · intro sound declaration listed
      obtain ⟨place, found⟩ := List.mem_iff_getElem?.mp listed
      exact sound (declaration, place) (List.mem_zipIdx_iff_getElem?.mpr found)
    · exact fun sound place member => sound place.1 (List.fst_mem_of_mem_zipIdx member)
  · simp only [Bool.not_eq_false', decide_eq_true_iff]

end Structure

omit [DecidableEq κ] in
/-- Without violations of this kind no state lies below itself. -/
theorem cycleViolations_eq_nil_iff [StateKey κ] (blueprint : Blueprint κ η) :
    blueprint.cycleViolations = [] ↔ ∀ key, ¬ blueprint.IsBelow key key := by
  simp only [cycleViolations, List.map_eq_nil_iff, List.filter_eq_nil_iff, decide_eq_true_iff]
  constructor
  · intro acyclic key below
    obtain ⟨_, ⟨_, declaration, listed, rfl, _⟩, _⟩ := Relation.TransGen.head'_iff.mp below
    exact acyclic declaration listed below
  · exact fun acyclic declaration _ => acyclic declaration.id

section InitialChildren

variable (blueprint : Blueprint κ η)

/-- The region of a child is one of its parent. -/
theorem mem_regionsBelow_iff {parent : κ} {region : String} :
    region ∈ blueprint.regionsBelow parent ↔ ∃ child, blueprint.LiesIn child parent region := by
  simp only [regionsBelow, List.mem_eraseDups, List.mem_map, List.mem_filter, beq_iff_eq]
  constructor
  · rintro ⟨declaration, ⟨listed, below⟩, inRegion⟩
    exact ⟨declaration.id, declaration, listed, rfl, below, inRegion⟩
  · rintro ⟨_, declaration, listed, _, below, inRegion⟩
    exact ⟨declaration, ⟨listed, below⟩, inRegion⟩

/-- The first child designated for a region is designated, and for that region. -/
theorem of_firstInitial?_eq_some
    {parent child : κ}
    {region : String}
    (first : blueprint.firstInitial? parent region = some child) :
    (parent, child) ∈ blueprint.initials ∧ blueprint.LiesIn child parent region := by
  obtain ⟨⟨above, below⟩, found, rfl⟩ := Option.map_eq_some_iff.mp first
  have designated := List.find?_some found
  rw [decide_eq_true_iff] at designated
  obtain ⟨rfl, inRegion⟩ := designated
  exact ⟨List.mem_of_find?_eq_some found, inRegion⟩

/-- There is a first child designated for a region if any is. -/
theorem exists_firstInitial?_of_mem
    {parent child : κ}
    {region : String}
    (designated : (parent, child) ∈ blueprint.initials)
    (inRegion : blueprint.LiesIn child parent region) :
    ∃ first, blueprint.firstInitial? parent region = some first := by
  rw [firstInitial?]
  cases found : blueprint.initials.find? fun call =>
      decide (call.1 = parent ∧ blueprint.LiesIn call.2 parent region) with
  | none =>
      have missed := List.find?_eq_none.mp found _ designated
      simp [inRegion] at missed
  | some call => exact ⟨call.2, rfl⟩

variable [StateKey κ]

/-- A designation is all right exactly if it names a child below its parent that is the first
one designated for its region. -/
theorem initialViolation?_eq_none_iff
    (distinct : (blueprint.declarations.map Declaration.id).Nodup)
    (call : κ × κ) :
    blueprint.initialViolation? call = none ↔
      blueprint.IsDeclared call.1 ∧ ∃ region, blueprint.LiesIn call.2 call.1 region ∧
        blueprint.firstInitial? call.1 region = some call.2 := by
  obtain ⟨above, below⟩ := call
  rw [initialViolation?]
  by_cases known : blueprint.IsDeclared above ∧ blueprint.IsDeclared below
  · obtain ⟨aboveKnown, declaration, listed, rfl⟩ := id known
    rw [if_pos known, find?_declaration_eq distinct listed]
    simp only [liesIn_iff distinct listed, aboveKnown, true_and]
    by_cases attached : declaration.parent = some above
    · simp [attached]
    · simp [attached]
  · rw [if_neg known]
    simp only [reduceCtorEq, false_iff]
    rintro ⟨aboveKnown, _, ⟨declaration, listed, same, _⟩, _⟩
    exact known ⟨aboveKnown, declaration, listed, same⟩

/-- The designations are all right exactly if each names a child below its parent and no two
name different children for one region. -/
theorem initialViolation?_eq_none_of_mem_iff
    (distinct : (blueprint.declarations.map Declaration.id).Nodup)
    (parent_declared : ∀ declaration ∈ blueprint.declarations, ∀ parent,
      declaration.parent = some parent → blueprint.IsDeclared parent) :
    (∀ call ∈ blueprint.initials, blueprint.initialViolation? call = none) ↔
      (∀ call ∈ blueprint.initials, blueprint.IsChild call.2 call.1) ∧
      ∀ parent first second region, (parent, first) ∈ blueprint.initials →
        (parent, second) ∈ blueprint.initials → blueprint.LiesIn first parent region →
          blueprint.LiesIn second parent region → first = second := by
  simp only [initialViolation?_eq_none_iff blueprint distinct]
  constructor
  · intro sound
    have first_eq {parent child : κ} {region : String}
        (designated : (parent, child) ∈ blueprint.initials)
        (inRegion : blueprint.LiesIn child parent region) :
        blueprint.firstInitial? parent region = some child := by
      obtain ⟨_, other, otherRegion, first⟩ := sound _ designated
      obtain ⟨declaration, listed, rfl, placed⟩ := inRegion
      rw [← placed.2, ((liesIn_iff distinct listed).mp otherRegion).2]
      exact first
    refine ⟨fun call designated => ?_, ?_⟩
    · obtain ⟨_, region, inRegion, _⟩ := sound call designated
      exact ⟨region, inRegion⟩
    · intro parent first second region firstDesignated secondDesignated firstIn secondIn
      exact Option.some.inj
        ((first_eq firstDesignated firstIn).symm.trans (first_eq secondDesignated secondIn))
  · rintro ⟨children, unique⟩ ⟨parent, child⟩ designated
    obtain ⟨region, inRegion⟩ := children _ designated
    obtain ⟨declaration, listed, _, below, _⟩ := id inRegion
    refine ⟨parent_declared declaration listed parent below, region, inRegion, ?_⟩
    obtain ⟨first, first_eq⟩ := blueprint.exists_firstInitial?_of_mem designated inRegion
    obtain ⟨firstDesignated, firstIn⟩ := blueprint.of_firstInitial?_eq_some first_eq
    rw [first_eq, unique parent first child region firstDesignated designated firstIn inRegion]

omit [StateKey κ] in
/-- No region lacks an initial child exactly if one is designated for each. -/
theorem missing_eq_nil_iff
    (parent_declared : ∀ declaration ∈ blueprint.declarations, ∀ parent,
      declaration.parent = some parent → blueprint.IsDeclared parent) :
    (∀ declaration ∈ blueprint.declarations,
        ∀ region ∈ blueprint.regionsBelow declaration.id,
          blueprint.firstInitial? declaration.id region ≠ none) ↔
      ∀ child parent region, blueprint.LiesIn child parent region →
        ∃ initial, (parent, initial) ∈ blueprint.initials ∧
          blueprint.LiesIn initial parent region := by
  constructor
  · intro given child parent region inRegion
    obtain ⟨declaration, listed, _, below, _⟩ := id inRegion
    obtain ⟨upper, upperListed, rfl⟩ := parent_declared declaration listed parent below
    obtain ⟨initial, first⟩ := Option.ne_none_iff_exists'.mp
      (given upper upperListed region (blueprint.mem_regionsBelow_iff.mpr ⟨child, inRegion⟩))
    exact ⟨initial, blueprint.of_firstInitial?_eq_some first⟩
  · intro given declaration _ region named
    obtain ⟨child, inRegion⟩ := blueprint.mem_regionsBelow_iff.mp named
    obtain ⟨initial, designated, initialIn⟩ := given child declaration.id region inRegion
    obtain ⟨first, first_eq⟩ := blueprint.exists_firstInitial?_of_mem designated initialIn
    rw [first_eq]
    exact Option.some_ne_none first

end InitialChildren

/-! ## The verdict -/

variable [StateKey κ] (blueprint : Blueprint κ η)

/-- A blueprint is well-formed exactly if it has no violations. -/
theorem isWellFormed_iff : blueprint.IsWellFormed ↔ blueprint.violations = [] := by
  have violations_nil : blueprint.violations = [] ↔ blueprint.declarations ≠ [] ∧
      blueprint.structureViolations = [] ∧ blueprint.cycleViolations = [] ∧
        blueprint.initialViolations = [] := by
    rw [violations]
    split_ifs <;> simp_all
  rw [violations_nil, structureViolations_eq_nil_iff, cycleViolations_eq_nil_iff]
  simp only [initialViolations, List.append_eq_nil_iff, List.filterMap_eq_nil_iff,
    List.flatMap_eq_nil_iff, List.map_eq_nil_iff, List.filter_eq_nil_iff, Option.isNone_iff_eq_none]
  constructor
  · intro wellFormed
    have declared (declaration : Declaration κ) (listed : declaration ∈ blueprint.declarations)
        (parent : κ) (below : declaration.parent = some parent) : blueprint.IsDeclared parent :=
      (wellFormed.parent_declared listed below).2
    exact ⟨wellFormed.nonempty,
      ⟨wellFormed.distinct, fun _ listed _ below => wellFormed.parent_declared listed below,
        fun _ registered => wellFormed.behaviour_declared registered⟩,
      wellFormed.acyclic,
      (blueprint.initialViolation?_eq_none_of_mem_iff wellFormed.distinct declared).mpr
        ⟨fun _ designated => wellFormed.initial_child designated,
          fun _ _ _ _ first second firstIn secondIn =>
            wellFormed.initial_unique first second firstIn secondIn⟩,
      (blueprint.missing_eq_nil_iff declared).mpr fun _ _ _ inRegion =>
        wellFormed.initial_given inRegion⟩
  · rintro ⟨nonempty, ⟨distinct, parents, behaviour⟩, acyclic, designated, given⟩
    have declared (declaration : Declaration κ) (listed : declaration ∈ blueprint.declarations)
        (parent : κ) (below : declaration.parent = some parent) : blueprint.IsDeclared parent :=
      (parents declaration listed parent below).2
    obtain ⟨children, unique⟩ :=
      (blueprint.initialViolation?_eq_none_of_mem_iff distinct declared).mp designated
    exact
      { nonempty
        distinct
        parent_declared := fun listed below => parents _ listed _ below
        behaviour_declared := fun registered => behaviour _ registered
        acyclic
        initial_child := fun designated => children _ designated
        initial_unique := fun first second firstIn secondIn =>
          unique _ _ _ _ first second firstIn secondIn
        initial_given := fun inRegion =>
          (blueprint.missing_eq_nil_iff declared).mp given _ _ _ inRegion }

/-- A violation is not a bundle. -/
theorem problems_of_mem_violations
    {error : ConfigurationError}
    (listed : error ∈ blueprint.violations) :
    error.problems = [error] := by
  rw [violations] at listed
  split_ifs at listed with empty misbuilt cyclic
  · rw [List.mem_singleton.mp listed]
    rfl
  · simp only [structureViolations, List.mem_append, List.mem_map, List.mem_filterMap,
      parentViolation?, Option.bind_eq_some_iff] at listed
    rcases listed with (⟨_, _, rfl⟩ | ⟨_, _, _, _, wrong⟩) | ⟨_, _, rfl⟩
    · rfl
    · split_ifs at wrong <;> cases wrong <;> rfl
    · rfl
  · simp only [cycleViolations, List.mem_map] at listed
    obtain ⟨_, _, rfl⟩ := listed
    rfl
  · simp only [initialViolations, List.mem_append, List.mem_filterMap, List.mem_flatMap,
      List.mem_map, initialViolation?] at listed
    rcases listed with ⟨_, _, wrong⟩ | ⟨_, _, _, _, rfl⟩
    · split at wrong
      · split at wrong
        · cases wrong
          rfl
        · split_ifs at wrong
          cases wrong
          rfl
      · cases wrong
        rfl
    · rfl

/-- The check gives its verdict on the violations. -/
theorem validate_eq :
    blueprint.validate =
      (ConfigurationError.verdict blueprint.violations).map fun _ => blueprint.graph := by
  rw [validate, violations, structureProblems_eq]
  by_cases empty : blueprint.declarations = []
  · rw [if_pos empty, empty]
    rfl
  rw [if_neg empty, if_neg (by simpa using empty)]
  by_cases misbuilt : blueprint.structureViolations ≠ []
  · rw [if_pos misbuilt]
    exact ConfigurationError.verdict_bind_of_ne_nil misbuilt _ _
  rw [if_neg misbuilt, not_not.mp misbuilt]
  have distinct := (blueprint.structureViolations_eq_nil_iff.mp (not_not.mp misbuilt)).1
  rw [cycleProblems_eq distinct, initialProblems_eq distinct]
  by_cases cyclic : blueprint.cycleViolations ≠ []
  · rw [if_pos cyclic]
    exact ConfigurationError.verdict_bind_of_ne_nil cyclic _ _
  rw [if_neg cyclic, not_not.mp cyclic]
  by_cases unfilled : blueprint.initialViolations = []
  · rw [unfilled]
    rfl
  · exact ConfigurationError.verdict_bind_of_ne_nil unfilled _ _

/-- However a chart is described, the check accepts the description exactly if it is
well-formed, and any other one it refuses with the violations of the first stage that has
any. -/
theorem validate_ofCalls (calls : List (BlueprintCall κ η)) :
    ((∃ graph, (ofCalls calls).validate = .ok graph) ↔ (ofCalls calls).IsWellFormed) ∧
      ∀ error, (ofCalls calls).validate = .error error →
        ConfigurationError.verdict (ofCalls calls).violations = .error error ∧
          error.problems = (ofCalls calls).violations := by
  have refused_iff (error : ConfigurationError) :
      (ofCalls calls).validate = .error error ↔
        ConfigurationError.verdict (ofCalls calls).violations = .error error := by
    rw [validate_eq]
    cases ConfigurationError.verdict (ofCalls calls).violations with
    | error _ => simp [Except.map]
    | ok _ => simp [Except.map]
  constructor
  · rw [isWellFormed_iff, ← ConfigurationError.verdict_eq_ok_iff, validate_eq]
    cases ConfigurationError.verdict (ofCalls calls).violations with
    | error _ => simp [Except.map]
    | ok _ => simp [Except.map]
  · intro error refused
    have verdict_eq := (refused_iff error).mp refused
    exact ⟨verdict_eq, ConfigurationError.problems_of_verdict_eq_error
      (fun _ => (ofCalls calls).problems_of_mem_violations) verdict_eq⟩

/-- Two states above each other lie on a cycle, and a third one only leads into it. -/
example (η : Type) :
    (ofCalls (η := η) [.addState "left" (some "right") none,
      .addState "right" (some "left") none,
      .addState "under" (some "left") none]).validate =
        .error (.invalid [.parentCycle "left", .parentCycle "right"]) := by
  cbv

end Blueprint
end Statechart
