import Statechart.Proofs.Graph.Requirements
import Statechart.Proofs.Graph.Validated

/-!
# The diagnosis of a blueprint

A blueprint validates exactly if it is well-formed. Otherwise the error tells of all
violations of the first stage that has any, each of them once and in order. The check works
with the numbers of states while the violations are said in terms of keys; once keys are
distinct and parents are declared, both come to the same.
-/

namespace Statechart

/-- What is picked from the places of a list is picked from its members. -/
theorem map_filter_range_eq
    {α β : Type}
    {list : List α}
    {atPlace : Nat → Bool}
    {wanted : α → Bool}
    {byPlace : Nat → β}
    {give : α → β}
    (same : ∀ place member, list[place]? = some member →
      atPlace place = wanted member ∧ byPlace place = give member) :
    ((List.range list.length).filter atPlace).map byPlace = (list.filter wanted).map give := by
  induction list generalizing atPlace byPlace with
  | nil => rfl
  | cons first rest inductionHypothesis =>
      obtain ⟨first_wanted, first_given⟩ := same 0 first rfl
      have rest_eq := inductionHypothesis fun place member found => same (place + 1) member found
      rw [List.length_cons, List.range_succ_eq_map, List.filter_cons, List.filter_cons,
        List.filter_map, first_wanted]
      split
      · rw [List.map_cons, List.map_cons, List.map_map, first_given, ← rest_eq]
        rfl
      · rw [List.map_map, ← rest_eq]
        rfl

/-- What is collected from the places of a list is collected from its members. -/
theorem flatMap_range_eq
    {α β : Type}
    {list : List α}
    {atPlace : Nat → List β}
    {collect : α → List β}
    (same : ∀ place member, list[place]? = some member → atPlace place = collect member) :
    (List.range list.length).flatMap atPlace = list.flatMap collect := by
  induction list generalizing atPlace with
  | nil => rfl
  | cons first rest inductionHypothesis =>
      rw [List.length_cons, List.range_succ_eq_map, List.flatMap_cons, List.flatMap_cons,
        List.flatMap_map, same 0 first rfl]
      exact congrArg _ (inductionHypothesis fun place member found =>
        same (place + 1) member found)

namespace Blueprint

variable {κ η : Type}

/-! ## The structure -/

section Structure

variable [DecidableEq κ]

/-- The key declared at some place is one of those seen, or has been declared at an earlier
place. -/
def isKnown
    (seen : List κ)
    (declarations : List (Declaration κ))
    (place : Declaration κ × Nat) : Bool :=
  decide (place.1.id ∈ seen ++ (declarations.take place.2).map Declaration.id)

/-- At a later place the first declaration counts as seen. -/
theorem isKnown_cons
    (seen : List κ)
    (declaration other : Declaration κ)
    (others : List (Declaration κ))
    (place : Nat) :
    isKnown seen (declaration :: others) (other, place + 1) =
      isKnown (declaration.id :: seen) others (other, place) := by
  simp only [isKnown, List.take_succ_cons, List.map_cons, List.mem_append, List.mem_cons,
    decide_eq_decide]
  tauto

/-- What has been seen need not be seen again. -/
theorem isKnown_of_mem
    {seen : List κ}
    {key : κ}
    (old : key ∈ seen)
    (declarations : List (Declaration κ)) :
    isKnown (key :: seen) declarations = isKnown seen declarations := by
  funext place
  simp only [isKnown, List.cons_append, List.mem_cons, decide_eq_decide]
  refine or_iff_right_of_imp fun same => ?_
  rw [same]
  exact List.mem_append_left _ old

/-- The declarations at known places are repeats, and the others are the first ones of
their keys. -/
theorem repeatsAfter_firstsAfter_eq (seen : List κ) (declarations : List (Declaration κ)) :
    repeatsAfter seen declarations =
        (declarations.zipIdx.filter (isKnown seen declarations)).map Prod.fst ∧
      firstsAfter seen declarations =
        (declarations.zipIdx.filter fun place => !isKnown seen declarations place).map
          Prod.fst := by
  induction declarations generalizing seen with
  | nil => exact ⟨rfl, rfl⟩
  | cons declaration others inductionHypothesis =>
      have first_known : isKnown seen (declaration :: others) (declaration, 0) =
          decide (declaration.id ∈ seen) := by
        simp [isKnown]
      simp only [repeatsAfter, firstsAfter, List.zipIdx_cons', List.filter_cons, first_known,
        List.filter_map, Function.comp_def, Prod.map, id, isKnown_cons]
      by_cases old : declaration.id ∈ seen
      · simpa [old, isKnown_of_mem old, Function.comp_def] using inductionHypothesis seen
      · simpa [old, Function.comp_def] using inductionHypothesis (declaration.id :: seen)

variable (blueprint : Blueprint κ η)

/-- Every declared key has a first declaration. -/
theorem mem_firstsAfter_iff
    {seen : List κ}
    {declarations : List (Declaration κ)}
    {key : κ}
    (new : key ∉ seen) :
    key ∈ (firstsAfter seen declarations).map Declaration.id ↔
      key ∈ declarations.map Declaration.id := by
  induction declarations generalizing seen with
  | nil => rfl
  | cons declaration others inductionHypothesis =>
      rw [firstsAfter, List.map_cons, List.mem_cons]
      split
      · rename_i old
        have different : key ≠ declaration.id := fun same => new (same ▸ old)
        rw [inductionHypothesis new, or_iff_right different]
      · rw [List.map_cons, List.mem_cons]
        by_cases same : key = declaration.id
        · simp [same]
        · rw [or_iff_right same, or_iff_right same]
          exact inductionHypothesis (by simp [same, new])

/-- A key has a number exactly if it is declared. -/
theorem isSome_indexOf?_outline_iff {key : κ} :
    (blueprint.outline.indexOf? key).isSome = true ↔ blueprint.IsDeclared key := by
  have listed : blueprint.IsDeclared key ↔ key ∈ blueprint.firsts.map Declaration.id := by
    rw [firsts, mem_firstsAfter_iff List.not_mem_nil, List.mem_map, IsDeclared]
  rw [listed, Outline.indexOf?, Array.findIdx?_isSome]
  simp [outline]

variable [StateKey κ]

/-- The problems with the structure are its violations. -/
theorem structureProblems_eq :
    blueprint.structureProblems = blueprint.structureViolations := by
  obtain ⟨repeats_eq, firsts_eq⟩ :=
    repeatsAfter_firstsAfter_eq [] blueprint.declarations
  have parents_eq (declaration : Declaration κ) :
      parentProblem? blueprint.outline declaration =
        blueprint.parentViolation? declaration := by
    rw [parentProblem?, parentViolation?]
    cases declaration.parent with
    | none => rfl
    | some parent =>
        simp only [Option.bind_some, isSome_indexOf?_outline_iff]
  have undeclared (key : κ) :
      (blueprint.outline.indexOf? key).isNone = !decide (blueprint.IsDeclared key) := by
    rw [← Option.not_isSome, Bool.not_inj_iff, Bool.eq_iff_iff, decide_eq_true_iff]
    exact blueprint.isSome_indexOf?_outline_iff
  have isRedeclaration_eq : blueprint.isRedeclaration = isKnown [] blueprint.declarations := rfl
  simp only [structureProblems, structureViolations, repeats, firsts, repeats_eq, firsts_eq,
    isRedeclaration_eq, List.map_map, List.filterMap_map, Function.comp_def, parents_eq,
    undeclared]

end Structure

/-! ## Numbers and keys -/

section Distinct

variable
  [DecidableEq κ]
  {blueprint : Blueprint κ η}
  (distinct : (blueprint.declarations.map Declaration.id).Nodup)

include distinct

omit [DecidableEq κ] in
/-- Two declarations of one key are the same. -/
theorem eq_of_id_eq
    {first second : Declaration κ}
    (firstListed : first ∈ blueprint.declarations)
    (secondListed : second ∈ blueprint.declarations)
    (same : first.id = second.id) :
    first = second :=
  List.inj_on_of_nodup_map distinct firstListed secondListed same

omit [DecidableEq κ] in
theorem liesIn_iff
    {declaration : Declaration κ}
    (listed : declaration ∈ blueprint.declarations)
    {parent : κ}
    {region : String} :
    blueprint.LiesIn declaration.id parent region ↔
      declaration.parent = some parent ∧ declaration.region = region := by
  constructor
  · rintro ⟨other, otherListed, same, below, inRegion⟩
    rw [eq_of_id_eq distinct listed otherListed same.symm]
    exact ⟨below, inRegion⟩
  · rintro ⟨below, inRegion⟩
    exact ⟨declaration, listed, rfl, below, inRegion⟩

omit [DecidableEq κ] in
theorem isChild_iff
    {declaration : Declaration κ}
    (listed : declaration ∈ blueprint.declarations)
    {parent : κ} :
    blueprint.IsChild declaration.id parent ↔ declaration.parent = some parent := by
  simp [IsChild, liesIn_iff distinct listed]

/-- If keys are distinct none is declared again. -/
theorem isRedeclaration_eq_false
    {place : Declaration κ × Nat}
    (member : place ∈ blueprint.declarations.zipIdx) :
    blueprint.isRedeclaration place = false := by
  obtain ⟨declaration, state⟩ := place
  have found : blueprint.declarations[state]? = some declaration :=
    List.mem_zipIdx_iff_getElem?.mp member
  rw [isRedeclaration, decide_eq_false_iff_not]
  intro repeated
  rw [List.map_take] at repeated
  obtain ⟨earlier, inRange, same⟩ := List.mem_take_iff_getElem.mp repeated
  have equal : earlier = state := by
    refine (List.getElem?_inj (by omega) distinct).mp ?_
    rw [List.getElem?_eq_some_iff.mpr ⟨_, same⟩, List.getElem?_map, found]
    rfl
  omega

/-- If keys are distinct every declaration is the first one of its key. -/
theorem firsts_eq_declarations : blueprint.firsts = blueprint.declarations := by
  rw [firsts, (repeatsAfter_firstsAfter_eq [] blueprint.declarations).2, List.filter_eq_self.mpr,
    List.zipIdx_map_fst]
  intro place member
  rw [Bool.not_eq_true']
  exact isRedeclaration_eq_false distinct member

/-- States are numbered by their places among the declarations. -/
theorem size_outline_eq : blueprint.outline.size = blueprint.declarations.length := by
  rw [size_outline, firsts_eq_declarations distinct]

theorem getElem?_ids_outline (state : Nat) :
    blueprint.outline.ids[state]? = blueprint.declarations[state]?.map Declaration.id := by
  simp [outline, firsts_eq_declarations distinct]

/-- The number of a key is the place of its declaration. -/
theorem indexOf?_outline_eq_some_iff
    {key : κ}
    {state : Nat} :
    blueprint.outline.indexOf? key = some state ↔
      ∃ declaration, blueprint.declarations[state]? = some declaration ∧
        declaration.id = key := by
  have ids_eq : blueprint.outline.ids = (blueprint.declarations.map Declaration.id).toArray := by
    rw [outline, firsts_eq_declarations distinct]
  rw [Outline.indexOf?, ids_eq, List.findIdx?_toArray, List.findIdx?_eq_some_iff_getElem]
  constructor
  · rintro ⟨inRange, same, _⟩
    rw [List.length_map] at inRange
    exact ⟨_, List.getElem?_eq_getElem inRange, by simpa using same⟩
  · rintro ⟨declaration, found, rfl⟩
    obtain ⟨inRange, rfl⟩ := List.getElem?_eq_some_iff.mp found
    refine ⟨by simpa using inRange, by simp, fun earlier before => ?_⟩
    rw [beq_iff_eq]
    intro same
    have equal : earlier = state := by
      refine (List.getElem?_inj (by simp; omega) distinct).mp ?_
      rw [List.getElem?_eq_some_iff.mpr ⟨_, same⟩, List.getElem?_map, found]
      rfl
    omega

theorem nameOf_outline
    [StateKey κ]
    {state : Nat}
    {declaration : Declaration κ}
    (found : blueprint.declarations[state]? = some declaration) :
    blueprint.outline.nameOf state = StateKey.name declaration.id := by
  rw [Outline.nameOf, getElem?_ids_outline distinct, found]
  rfl

theorem labelOf_outline
    {state : Nat}
    {declaration : Declaration κ}
    (found : blueprint.declarations[state]? = some declaration) :
    blueprint.outline.labelOf state = declaration.region := by
  simp [Outline.labelOf, outline, firsts_eq_declarations distinct, found]

theorem parentOf_outline
    {state : Nat}
    {declaration : Declaration κ}
    (found : blueprint.declarations[state]? = some declaration) :
    blueprint.outline.parentOf state = declaration.parent.bind blueprint.outline.indexOf? := by
  have parents_eq : blueprint.outline.parents =
      (blueprint.declarations.map fun declaration =>
        declaration.parent.bind blueprint.outline.indexOf?).toArray := by
    rw [← firsts_eq_declarations distinct]
    rfl
  simp [Outline.parentOf, parents_eq, found]

/-- A state is below another one exactly if its declaration names the other key. -/
theorem parentOf_outline_eq_some_iff
    {state above : Nat}
    {declaration upper : Declaration κ}
    (found : blueprint.declarations[state]? = some declaration)
    (upperFound : blueprint.declarations[above]? = some upper) :
    blueprint.outline.parentOf state = some above ↔ declaration.parent = some upper.id := by
  rw [parentOf_outline distinct found, Option.bind_eq_some_iff]
  constructor
  · rintro ⟨key, named, numbered⟩
    obtain ⟨other, otherFound, rfl⟩ := (indexOf?_outline_eq_some_iff distinct).mp numbered
    rw [upperFound] at otherFound
    cases otherFound
    exact named
  · exact fun named => ⟨upper.id, named,
      (indexOf?_outline_eq_some_iff distinct).mpr ⟨upper, upperFound, rfl⟩⟩

/-- Only a number of a declaration is that of a parent. -/
theorem exists_declaration_of_parentOf
    {state above : Nat}
    (below : blueprint.outline.parentOf state = some above) :
    ∃ upper, blueprint.declarations[above]? = some upper := by
  have inside := blueprint.parent_lt_size_outline below
  rw [size_outline_eq distinct] at inside
  exact ⟨_, List.getElem?_eq_getElem inside⟩

/-! ## Cycles -/

/-- Climbing leads to the keys above. -/
theorem isBelow_of_climb
    {steps state reached : Nat}
    {declaration upper : Declaration κ}
    (found : blueprint.declarations[state]? = some declaration)
    (upperFound : blueprint.declarations[reached]? = some upper)
    (climbed : climb blueprint.outline.parentOf (steps + 1) state = some reached) :
    blueprint.IsBelow declaration.id upper.id := by
  induction steps generalizing reached upper with
  | zero =>
      rw [climb_succ_last, climb_zero, Option.bind_some,
        parentOf_outline_eq_some_iff distinct found upperFound] at climbed
      exact .single ((isChild_iff distinct (List.mem_of_getElem? found)).mpr climbed)
  | succ steps inductionHypothesis =>
      rw [climb_succ_last] at climbed
      obtain ⟨between, earlier, last⟩ := Option.bind_eq_some_iff.mp climbed
      obtain ⟨lower, lowerFound⟩ : ∃ lower, blueprint.declarations[between]? = some lower := by
        rw [climb_succ_last] at earlier
        obtain ⟨_, _, below⟩ := Option.bind_eq_some_iff.mp earlier
        exact exists_declaration_of_parentOf distinct below
      refine .tail (inductionHypothesis lowerFound earlier) ?_
      rw [isChild_iff distinct (List.mem_of_getElem? lowerFound)]
      exact (parentOf_outline_eq_some_iff distinct lowerFound upperFound).mp last

/-- The declared keys above a state are reached by climbing. -/
theorem exists_climb_of_isBelow
    {state : Nat}
    {declaration upper : Declaration κ}
    (found : blueprint.declarations[state]? = some declaration)
    (upperListed : upper ∈ blueprint.declarations)
    (below : blueprint.IsBelow declaration.id upper.id) :
    ∃ steps reached, climb blueprint.outline.parentOf (steps + 1) state = some reached ∧
      blueprint.declarations[reached]? = some upper := by
  generalize key_eq : upper.id = key at below
  induction below generalizing upper with
  | single child =>
      obtain ⟨reached, upperFound⟩ := List.mem_iff_getElem?.mp upperListed
      refine ⟨0, reached, ?_, upperFound⟩
      rw [climb_succ_last, climb_zero, Option.bind_some,
        parentOf_outline_eq_some_iff distinct found upperFound, key_eq]
      exact (isChild_iff distinct (List.mem_of_getElem? found)).mp child
  | tail _ child inductionHypothesis =>
      obtain ⟨_, lower, lowerListed, lower_eq, _⟩ := id child
      obtain ⟨steps, between, climbed, lowerFound⟩ := inductionHypothesis lowerListed lower_eq
      obtain ⟨reached, upperFound⟩ := List.mem_iff_getElem?.mp upperListed
      refine ⟨steps + 1, reached, ?_, upperFound⟩
      rw [climb_succ_last, climbed, Option.bind_some,
        parentOf_outline_eq_some_iff distinct lowerFound upperFound, key_eq]
      rw [← lower_eq] at child
      exact (isChild_iff distinct lowerListed).mp child

/-- The bounded search for cycles finds exactly the states that lie below themselves. -/
theorem isOnCycle_outline_iff
    {state : Nat}
    {declaration : Declaration κ}
    (found : blueprint.declarations[state]? = some declaration) :
    blueprint.outline.isOnCycle state = true ↔
      blueprint.IsBelow declaration.id declaration.id := by
  have inside : state < blueprint.outline.size := by
    rw [size_outline_eq distinct]
    exact (List.getElem?_eq_some_iff.mp found).1
  rw [Outline.isOnCycle_iff]
  constructor
  · rintro ⟨steps, positive, _, climbed⟩
    obtain ⟨fewer, rfl⟩ := Nat.exists_eq_succ_of_ne_zero positive.ne'
    exact isBelow_of_climb distinct found found climbed
  · intro below
    obtain ⟨steps, reached, climbed, reachedFound⟩ :=
      exists_climb_of_isBelow distinct found (List.mem_of_getElem? found) below
    have same : reached = state := by
      have numbered (place : Nat) (placed : blueprint.declarations[place]? = some declaration) :
          blueprint.outline.indexOf? declaration.id = some place :=
        (indexOf?_outline_eq_some_iff distinct).mpr ⟨declaration, placed, rfl⟩
      exact Option.some.inj ((numbered reached reachedFound).symm.trans (numbered state found))
    rw [same] at climbed
    exact climb_returns_within blueprint.parent_lt_size_outline inside steps.succ_pos climbed

/-- The problems with cycles are the violations. -/
theorem cycleProblems_eq [StateKey κ] :
    blueprint.cycleProblems = blueprint.cycleViolations := by
  simp only [cycleProblems, cycleViolations, size_outline_eq distinct]
  refine map_filter_range_eq fun state declaration found => ⟨?_, ?_⟩
  · exact Bool.eq_iff_iff.mpr ((isOnCycle_outline_iff distinct found).trans
      (@decide_eq_true_iff _ (Classical.propDecidable _)).symm)
  · rw [nameOf_outline distinct found]

/-! ## Initial children -/

/-- A declaration is found by its place. -/
theorem indexOf?_outline_of_getElem?
    {state : Nat}
    {declaration : Declaration κ}
    (found : blueprint.declarations[state]? = some declaration) :
    blueprint.outline.indexOf? declaration.id = some state :=
  (indexOf?_outline_eq_some_iff distinct).mpr ⟨declaration, found, rfl⟩

omit distinct in
/-- The numbers in a well-formed designation. -/
theorem toOption_resolveInitial_eq_some_iff
    [StateKey κ]
    {outline : Outline κ}
    {call : κ × κ}
    {parent child : Nat} :
    (resolveInitial outline call).toOption = some (parent, child) ↔
      outline.indexOf? call.1 = some parent ∧ outline.indexOf? call.2 = some child ∧
        outline.parentOf child = some parent := by
  unfold resolveInitial
  split
  · rename_i upper lower upper_eq lower_eq
    rw [upper_eq, lower_eq]
    split
    · rename_i below
      simp only [Except.toOption, Option.some.injEq, Prod.mk.injEq]
      constructor
      · rintro ⟨rfl, rfl⟩
        exact ⟨rfl, rfl, below⟩
      · rintro ⟨rfl, rfl, _⟩
        exact ⟨rfl, rfl⟩
    · rename_i apart
      simp only [Except.toOption, reduceCtorEq, Option.some.injEq, false_iff]
      rintro ⟨rfl, rfl, below⟩
      exact apart below
  · rename_i unknown
    simp only [Except.toOption, reduceCtorEq, false_iff]
    rintro ⟨upper_eq, lower_eq, _⟩
    exact unknown parent child upper_eq lower_eq

variable
  [StateKey κ]
  {parent : Nat}
  {upper : Declaration κ}
  (upperFound : blueprint.declarations[parent]? = some upper)

include upperFound

/-- A call designates a child for a region of a state exactly if its keys say so. -/
theorem designates_iff
    {call : κ × κ}
    {region : String} :
    (resolveInitial blueprint.outline call).toOption.any (fun designation =>
        designation.1 == parent && blueprint.outline.labelOf designation.2 == region) = true ↔
      call.1 = upper.id ∧ blueprint.LiesIn call.2 upper.id region := by
  rw [Option.any_eq_true]
  simp only [Prod.exists, toOption_resolveInitial_eq_some_iff, Bool.and_eq_true, beq_iff_eq]
  constructor
  · rintro ⟨_, child, ⟨upper_eq, lower_eq, below⟩, rfl, label⟩
    obtain ⟨declaration, found, same⟩ := (indexOf?_outline_eq_some_iff distinct).mp lower_eq
    obtain ⟨other, otherFound, other_eq⟩ := (indexOf?_outline_eq_some_iff distinct).mp upper_eq
    rw [upperFound] at otherFound
    cases otherFound
    refine ⟨other_eq.symm, ?_⟩
    rw [← same, liesIn_iff distinct (List.mem_of_getElem? found)]
    exact ⟨(parentOf_outline_eq_some_iff distinct found upperFound).mp below,
      (labelOf_outline distinct found).symm.trans label⟩
  · rintro ⟨upper_eq, declaration, listed, same, below, rfl⟩
    obtain ⟨child, found⟩ := List.mem_iff_getElem?.mp listed
    refine ⟨parent, child, ⟨?_, ?_, ?_⟩, rfl, labelOf_outline distinct found⟩
    · rw [upper_eq]
      exact indexOf?_outline_of_getElem? distinct upperFound
    · rw [← same]
      exact indexOf?_outline_of_getElem? distinct found
    · exact (parentOf_outline_eq_some_iff distinct found upperFound).mpr below

/-- The initial child of a region is the one that the first call designates. -/
theorem initialOf?_outline_eq (region : String) :
    initialOf? blueprint.outline (blueprint.designations blueprint.outline) parent region =
      (blueprint.firstInitial? upper.id region).bind blueprint.outline.indexOf? := by
  have predicates_eq :
      (fun call => (resolveInitial blueprint.outline call).toOption.any (fun designation =>
        designation.1 == parent && blueprint.outline.labelOf designation.2 == region)) =
      fun call : κ × κ => decide (call.1 = upper.id ∧
        blueprint.LiesIn call.2 upper.id region) := by
    funext call
    exact Bool.eq_iff_iff.mpr
      ((designates_iff distinct upperFound).trans decide_eq_true_iff.symm)
  rw [initialOf?, firstInitial?, designations, List.find?_filterMap, predicates_eq]
  cases found : blueprint.initials.find? fun call => decide (call.1 = upper.id ∧
      blueprint.LiesIn call.2 upper.id region) with
  | none => rfl
  | some call =>
      have designated := List.find?_some found
      rw [decide_eq_true_iff, ← designates_iff distinct upperFound, Option.any_eq_true]
        at designated
      obtain ⟨⟨above, child⟩, resolved, _⟩ := designated
      simp only [Option.bind_some, Option.map_some, resolved,
        (toOption_resolveInitial_eq_some_iff.mp resolved).2.1]

/-- A region lacks an initial child exactly if no call designates one. -/
theorem isNone_initialOf?_outline (region : String) :
    (initialOf? blueprint.outline (blueprint.designations blueprint.outline)
      parent region).isNone = (blueprint.firstInitial? upper.id region).isNone := by
  rw [initialOf?_outline_eq distinct upperFound]
  cases first : blueprint.firstInitial? upper.id region with
  | none => rfl
  | some key =>
      obtain ⟨call, found, rfl⟩ := Option.map_eq_some_iff.mp first
      have designated := List.find?_some found
      rw [decide_eq_true_iff] at designated
      obtain ⟨_, declaration, listed, same, _⟩ := designated
      have known := blueprint.isSome_indexOf?_outline_iff.mpr ⟨declaration, listed, same⟩
      obtain ⟨place, numbered⟩ := Option.isSome_iff_exists.mp known
      simp [numbered]

/-- The initial child of a region is a state exactly if the first call designates its
key. -/
theorem initialOf?_outline_eq_some_iff
    {child : Nat}
    {declaration : Declaration κ}
    (found : blueprint.declarations[child]? = some declaration)
    (region : String) :
    initialOf? blueprint.outline (blueprint.designations blueprint.outline) parent region =
        some child ↔
      blueprint.firstInitial? upper.id region = some declaration.id := by
  rw [initialOf?_outline_eq distinct upperFound, Option.bind_eq_some_iff]
  constructor
  · rintro ⟨key, first, numbered⟩
    obtain ⟨other, otherFound, rfl⟩ := (indexOf?_outline_eq_some_iff distinct).mp numbered
    rw [found] at otherFound
    cases otherFound
    exact first
  · exact fun first => ⟨_, first, indexOf?_outline_of_getElem? distinct found⟩

omit [StateKey κ] in
/-- The regions of a state are those below its key. -/
theorem regionNames_outline :
    blueprint.outline.regionNames parent = blueprint.regionsBelow upper.id := by
  rw [Outline.regionNames, Outline.childrenOf, regionsBelow, size_outline_eq distinct]
  congr 1
  refine map_filter_range_eq fun child declaration found => ⟨?_, labelOf_outline distinct found⟩
  rw [Bool.eq_iff_iff, beq_iff_eq, beq_iff_eq]
  exact parentOf_outline_eq_some_iff distinct found upperFound

omit upperFound

omit [StateKey κ] in
/-- At most one declaration is one of a child below its parent. -/
theorem find?_declaration_eq
    {declaration : Declaration κ}
    (listed : declaration ∈ blueprint.declarations)
    (above : κ) :
    (blueprint.declarations.find? fun other =>
        decide (other.id = declaration.id ∧ other.parent = some above)) =
      if declaration.parent = some above then some declaration else none := by
  cases search : blueprint.declarations.find? fun other =>
      decide (other.id = declaration.id ∧ other.parent = some above) with
  | none =>
      have missed := List.find?_eq_none.mp search declaration listed
      rw [if_neg (by simpa using missed)]
  | some other =>
      have matching := List.find?_some search
      rw [decide_eq_true_iff] at matching
      have same := eq_of_id_eq distinct (List.mem_of_find?_eq_some search) listed matching.1
      rw [← same, if_pos matching.2]

/-- The problem with a designation is its violation. -/
theorem designationProblem?_outline_eq (call : κ × κ) :
    designationProblem? blueprint.outline (blueprint.designations blueprint.outline) call =
      blueprint.initialViolation? call := by
  obtain ⟨above, below⟩ := call
  rw [designationProblem?, initialViolation?, resolveInitial]
  by_cases known : blueprint.IsDeclared above ∧ blueprint.IsDeclared below
  · obtain ⟨⟨upper, upperListed, rfl⟩, declaration, listed, rfl⟩ := id known
    obtain ⟨parent, upperFound⟩ := List.mem_iff_getElem?.mp upperListed
    obtain ⟨child, found⟩ := List.mem_iff_getElem?.mp listed
    rw [if_pos known, find?_declaration_eq distinct listed]
    simp only [indexOf?_outline_of_getElem? distinct upperFound,
      indexOf?_outline_of_getElem? distinct found,
      parentOf_outline_eq_some_iff distinct found upperFound]
    by_cases attached : declaration.parent = some upper.id
    · simp only [if_pos attached, labelOf_outline distinct found,
        initialOf?_outline_eq_some_iff distinct upperFound found]
    · simp only [if_neg attached]
  · rw [if_neg known]
    rw [← isSome_indexOf?_outline_iff, ← isSome_indexOf?_outline_iff] at known
    cases upper_eq : blueprint.outline.indexOf? above with
    | none => rfl
    | some parent =>
        cases lower_eq : blueprint.outline.indexOf? below with
        | none => rfl
        | some child => exact absurd (by simp [upper_eq, lower_eq]) known

/-- The problems with initial children are the violations. -/
theorem initialProblems_eq : blueprint.initialProblems = blueprint.initialViolations := by
  simp only [initialProblems, initialViolations, size_outline_eq distinct]
  congr 1
  · exact List.filterMap_congr fun call _ => designationProblem?_outline_eq distinct call
  · refine flatMap_range_eq fun parent upper upperFound => ?_
    rw [regionNames_outline distinct upperFound, nameOf_outline distinct upperFound]
    simp only [isNone_initialOf?_outline distinct upperFound]

end Distinct
end Blueprint
end Statechart
