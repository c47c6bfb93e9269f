import Mathlib.Data.List.Forall2
import Statechart.Proofs.Graph.Kinship
import Statechart.Proofs.Graph.Verdict
import Statechart.Proofs.Table.Candidates

/-!
# Registering transitions

Whether a transition can be registered depends on the graph alone: its source is known, and
its target, if it has one, is known, lies in the same tree, and is the source if the
transition is in effect internal. A table is built of transitions that can all be
registered. Otherwise each of the others is reported with what is wrong with it.
-/

namespace Statechart

variable {κ τ ω : Type} [DecidableEq κ]

/-! ## Transitions that can be registered -/

/-- A transition can be registered for a graph. -/
structure Transition.IsRegistrable (graph : Graph κ) (transition : Transition κ τ ω) : Prop where
  /-- The source is a state. -/
  source_known : graph.contains transition.source = true
  /-- The target, if there is one, is a state. -/
  target_known {key : κ} : transition.target = some key → graph.contains key = true
  /-- The target lies in the tree of the source. -/
  one_tree {key : κ} : transition.target = some key → graph.InOneTree transition.source key
  /-- A transition that is in effect internal has no target but its source. -/
  stays {key : κ} :
    transition.effectiveKind = .internal → transition.target = some key →
      key = transition.source

instance (graph : Graph κ) (transition : Transition κ τ ω) :
    Decidable (transition.IsRegistrable graph) :=
  decidable_of_iff
    (graph.contains transition.source = true ∧ ∀ key ∈ transition.target,
      graph.contains key = true ∧ graph.InOneTree transition.source key ∧
        (transition.effectiveKind = .internal → key = transition.source))
    ⟨fun ⟨known, targeted⟩ => ⟨known, fun names => (targeted _ names).1,
        fun names => (targeted _ names).2.1, fun internal names => (targeted _ names).2.2 internal⟩,
      fun registrable => ⟨registrable.source_known, fun _ names =>
        ⟨registrable.target_known names, registrable.one_tree names,
          fun internal => registrable.stays internal names⟩⟩⟩

namespace Table

variable [StateKey κ] [Inspect τ] {graph : Graph κ} {transition : Transition κ τ ω}

open StateKey (name)

/-- What is reported about a transition that cannot be registered, which is the first thing that
is wrong with it. -/
inductive Blames (graph : Graph κ) (transition : Transition κ τ ω) : ConfigurationError → Prop
  /-- The source is unknown. -/
  | source
      (unknown : graph.contains transition.source = false) :
      Blames graph transition
        (.unknownTransitionState (name transition.source) (inspect transition.trigger))
  /-- The target is unknown. -/
  | target
      {key : κ}
      (known : graph.contains transition.source = true)
      (names : transition.target = some key)
      (unknown : graph.contains key = false) :
      Blames graph transition (.unknownTransitionState (name key) (inspect transition.trigger))
  /-- The transition is in effect internal and has another target than its source. -/
  | leaves
      {key : κ}
      (known : graph.contains transition.source = true)
      (names : transition.target = some key)
      (targetKnown : graph.contains key = true)
      (internal : transition.effectiveKind = .internal)
      (different : key ≠ transition.source) :
      Blames graph transition
        (.internalTargetMismatch (name transition.source) (name key)
          (inspect transition.trigger))
  /-- The target lies in another tree. -/
  | crosses
      {key : κ}
      (known : graph.contains transition.source = true)
      (names : transition.target = some key)
      (targetKnown : graph.contains key = true)
      (moves : transition.effectiveKind = .internal → key = transition.source)
      (apart : ¬ graph.InOneTree transition.source key) :
      Blames graph transition (.crossTreeTransition (name transition.source) (name key))

/-- A problem with a transition stands for itself. -/
theorem Blames.problems_eq
    {problem : ConfigurationError}
    (blames : Blames graph transition problem) :
    problem.problems = [problem] := by
  cases blames <;> rfl

/-- A transition can be registered, or there is something to report about it. -/
theorem isRegistrable_or_exists_blames (graph : Graph κ) (transition : Transition κ τ ω) :
    transition.IsRegistrable graph ∨ ∃ problem, Blames graph transition problem := by
  cases known : graph.contains transition.source with
  | false => exact .inr ⟨_, .source known⟩
  | true =>
      cases names : transition.target with
      | none => exact .inl ⟨known, by simp [names], by simp [names], by simp [names]⟩
      | some key =>
          cases targetKnown : graph.contains key with
          | false => exact .inr ⟨_, .target known names targetKnown⟩
          | true =>
              by_cases leaves : transition.effectiveKind = .internal ∧ key ≠ transition.source
              · exact .inr ⟨_, .leaves known names targetKnown leaves.1 leaves.2⟩
              · have moves (internal : transition.effectiveKind = .internal) :
                    key = transition.source :=
                  not_not.mp fun different => leaves ⟨internal, different⟩
                by_cases together : graph.InOneTree transition.source key
                · left
                  constructor
                  · exact known
                  · simpa [names] using targetKnown
                  · simpa [names] using together
                  · simpa [names] using moves
                · exact .inr ⟨_, .crosses known names targetKnown moves together⟩

/-! ## The check of a transition -/

section Check

variable {source : Nat} (found : graph.indexOf? transition.source = some source)

theorem resolve_of_unknown
    {trigger : τ}
    {key : κ}
    (unknown : graph.contains key = false) :
    resolve graph trigger key = .error (.unknownTransitionState (name key) (inspect trigger)) := by
  rw [resolve, Graph.contains_eq_false_iff.mp unknown]

include found

theorem entryOf_of_untargeted (untargeted : transition.target = none) :
    entryOf graph transition = .ok ⟨transition, source, none, transition.effectiveKind⟩ := by
  rw [entryOf, resolve_eq_ok_iff.mpr found, untargeted]
  rfl

theorem entryOf_of_unknown_target
    {key : κ}
    (names : transition.target = some key)
    (unknown : graph.contains key = false) :
    entryOf graph transition =
      .error (.unknownTransitionState (name key) (inspect transition.trigger)) := by
  rw [entryOf, resolve_eq_ok_iff.mpr found, names]
  simp only [bind, Except.bind, resolve_of_unknown unknown]

theorem entryOf_of_target
    {key : κ}
    {target : Nat}
    (names : transition.target = some key)
    (targetFound : graph.indexOf? key = some target) :
    entryOf graph transition =
      if transition.effectiveKind = .internal ∧ target ≠ source then
        .error (.internalTargetMismatch (name transition.source) (name key)
          (inspect transition.trigger))
      else if graph.rootOf source ≠ graph.rootOf target then
        .error (.crossTreeTransition (name transition.source) (name key))
      else .ok ⟨transition, source, some target, transition.effectiveKind⟩ := by
  rw [entryOf, resolve_eq_ok_iff.mpr found, names]
  simp only [bind, Except.bind, resolve_eq_ok_iff.mpr targetFound]
  rfl

end Check

section Forest

variable (forest : graph.IsForest)

include forest

/-- The check of a transition ends with what is reported about it. -/
theorem Blames.entryOf_eq
    {problem : ConfigurationError}
    (blames : Blames graph transition problem) :
    entryOf graph transition = .error problem := by
  cases blames with
  | source unknown =>
      rw [entryOf, resolve_of_unknown unknown]
      rfl
  | target known names unknown =>
      obtain ⟨source, found⟩ := Graph.contains_eq_true_iff.mp known
      exact entryOf_of_unknown_target found names unknown
  | leaves known names targetKnown internal different =>
      obtain ⟨source, found⟩ := Graph.contains_eq_true_iff.mp known
      obtain ⟨target, targetFound⟩ := Graph.contains_eq_true_iff.mp targetKnown
      rw [entryOf_of_target found names targetFound, if_pos]
      refine ⟨internal, ?_⟩
      rintro rfl
      exact different (forest.eq_of_indexOf? targetFound found)
  | crosses known names targetKnown moves apart =>
      obtain ⟨source, found⟩ := Graph.contains_eq_true_iff.mp known
      obtain ⟨target, targetFound⟩ := Graph.contains_eq_true_iff.mp targetKnown
      rw [entryOf_of_target found names targetFound, if_neg, if_pos]
      · rwa [forest.inOneTree_iff found targetFound] at apart
      · rintro ⟨internal, different⟩
        rw [moves internal, found] at targetFound
        exact different (Option.some.inj targetFound).symm

/-- The check of a transition that can be registered ends with an entry for it. -/
theorem exists_entryOf (registrable : transition.IsRegistrable graph) :
    ∃ entry, entryOf graph transition = .ok entry := by
  obtain ⟨source, found⟩ := Graph.contains_eq_true_iff.mp registrable.source_known
  cases names : transition.target with
  | none => exact ⟨_, entryOf_of_untargeted found names⟩
  | some key =>
      obtain ⟨target, targetFound⟩ :=
        Graph.contains_eq_true_iff.mp (registrable.target_known names)
      refine ⟨⟨transition, source, some target, transition.effectiveKind⟩, ?_⟩
      rw [entryOf_of_target found names targetFound, if_neg, if_neg]
      · rw [not_not]
        exact (forest.inOneTree_iff found targetFound).mp (registrable.one_tree names)
      · rintro ⟨internal, different⟩
        rw [registrable.stays internal names, found] at targetFound
        exact different (Option.some.inj targetFound).symm

/-- Exactly the transitions that can be registered have entries. -/
theorem exists_entryOf_iff :
    (∃ entry, entryOf graph transition = .ok entry) ↔ transition.IsRegistrable graph := by
  refine ⟨fun ⟨entry, accepted⟩ => ?_, exists_entryOf forest⟩
  rcases isRegistrable_or_exists_blames graph transition with registrable | ⟨problem, blames⟩
  · exact registrable
  · rw [blames.entryOf_eq forest] at accepted
    contradiction

/-- The check of a transition ends with a problem exactly if this is to be reported. -/
theorem entryOf_eq_error_iff
    {problem : ConfigurationError} :
    entryOf graph transition = .error problem ↔ Blames graph transition problem := by
  refine ⟨fun refused => ?_, fun blames => blames.entryOf_eq forest⟩
  rcases isRegistrable_or_exists_blames graph transition with registrable | ⟨other, blames⟩
  · obtain ⟨entry, accepted⟩ := exists_entryOf forest registrable
    rw [accepted] at refused
    contradiction
  · rw [blames.entryOf_eq forest] at refused
    cases refused
    exact blames

end Forest

/-! ## Building a table -/

/-- The entries of the transitions that can be registered. -/
def accepted (graph : Graph κ) (transitions : List (Transition κ τ ω)) : List (Entry κ τ ω) :=
  transitions.filterMap fun transition => (entryOf graph transition).toOption

section Building

variable {transitions : List (Transition κ τ ω)} (forest : graph.IsForest)

include forest

/-- The problems are those of the transitions that cannot be registered, in order. -/
theorem forall₂_problems :
    List.Forall₂ (Blames graph)
      (transitions.filter fun transition => ¬ transition.IsRegistrable graph)
      (problems graph transitions) := by
  induction transitions with
  | nil => exact .nil
  | cons transition transitions inductionHypothesis =>
      rw [problems, List.filterMap_cons, List.filter_cons]
      cases checked : entryOf graph transition with
      | error problem =>
          have blames := (entryOf_eq_error_iff forest).mp checked
          have refused : ¬ transition.IsRegistrable graph := fun registrable => by
            obtain ⟨entry, isEntry⟩ := exists_entryOf forest registrable
            rw [checked] at isEntry
            contradiction
          rw [if_pos (decide_eq_true refused)]
          exact .cons blames inductionHypothesis
      | ok entry =>
          have registrable := (exists_entryOf_iff forest).mp ⟨entry, checked⟩
          rw [if_neg (by simpa using registrable)]
          exact inductionHypothesis

/-- There is no problem exactly if all transitions can be registered. -/
theorem problems_eq_nil_iff :
    problems graph transitions = [] ↔
      ∀ transition ∈ transitions, transition.IsRegistrable graph := by
  have reported : List.Forall₂ (Blames graph) _ (problems graph transitions) :=
    forall₂_problems forest
  rw [← List.length_eq_zero_iff, ← reported.length_eq, List.length_eq_zero_iff,
    List.filter_eq_nil_iff]
  simp

omit forest in
/-- A table is built exactly if there is no problem, and it holds the entries. -/
theorem build_eq_ok_iff
    {table : Table κ τ ω} :
    build graph transitions = .ok table ↔
      problems graph transitions = [] ∧ table = ⟨accepted graph transitions⟩ := by
  rw [build, bind_eq_ok]
  constructor
  · rintro ⟨_, accepts, built⟩
    cases built
    exact ⟨(ConfigurationError.verdict_eq_ok_iff _).mp accepts, rfl⟩
  · rintro ⟨nothing, rfl⟩
    exact ⟨(), (ConfigurationError.verdict_eq_ok_iff _).mpr nothing, rfl⟩

/-- A table is built exactly of transitions that can all be registered. -/
theorem exists_build_iff :
    (∃ table, build graph transitions = .ok table) ↔
      ∀ transition ∈ transitions, transition.IsRegistrable graph := by
  simp only [build_eq_ok_iff, exists_and_left, exists_eq, and_true]
  exact problems_eq_nil_iff forest

/-- The error reports all problems. -/
theorem problems_of_build_eq_error
    {problem : ConfigurationError}
    (refused : build graph transitions = .error problem) :
    problem.problems = problems graph transitions := by
  have single : ∀ other ∈ problems graph transitions, other.problems = [other] := by
    intro other member
    obtain ⟨transition, _, found⟩ := List.mem_filterMap.mp member
    cases checked : entryOf graph transition with
    | ok entry =>
        rw [checked] at found
        contradiction
    | error problem =>
        rw [checked] at found
        cases found
        exact ((entryOf_eq_error_iff forest).mp checked).problems_eq
  refine ConfigurationError.problems_of_verdict_eq_error single ?_
  cases outcome : ConfigurationError.verdict (problems graph transitions) with
  | ok _ =>
      rw [build, outcome] at refused
      contradiction
  | error other =>
      rw [build, outcome] at refused
      cases refused
      rfl

/-- A table that has been built holds the transitions in order. -/
theorem map_transition_of_build
    {table : Table κ τ ω}
    (built : build graph transitions = .ok table) :
    table.entries.map Entry.transition = transitions := by
  obtain ⟨nothing, rfl⟩ := build_eq_ok_iff.mp built
  have registrable := (problems_eq_nil_iff forest).mp nothing
  clear built nothing
  induction transitions with
  | nil => rfl
  | cons transition transitions inductionHypothesis =>
      obtain ⟨first, rest⟩ := List.forall_mem_cons.mp registrable
      obtain ⟨entry, checked⟩ := exists_entryOf forest first
      rw [accepted, List.filterMap_cons, checked]
      exact congrArg₂ List.cons (source_of_entryOf checked).1 (inductionHypothesis rest)

/-- The transitions of a state on a trigger are found in order. -/
theorem candidates_of_build
    [DecidableEq τ]
    {table : Table κ τ ω}
    (built : build graph transitions = .ok table)
    (key : κ)
    (trigger : τ) :
    table.candidates graph key trigger =
      transitions.filter fun transition =>
        transition.source = key ∧ transition.trigger = trigger := by
  have fits := fits_of_build built
  have listed := map_transition_of_build forest built
  rw [← listed, List.filter_map, candidates]
  cases found : graph.indexOf? key with
  | none =>
      rw [eq_comm, List.map_eq_nil_iff, List.filter_eq_nil_iff]
      intro entry member isMatch
      obtain ⟨rfl, _⟩ := of_decide_eq_true isMatch
      rw [(source_of_entryOf (fits entry member)).2] at found
      contradiction
  | some state =>
      refine congrArg (List.map Entry.transition) (List.filter_congr fun entry member => ?_)
      have sourceFound := (source_of_entryOf (fits entry member)).2
      have same : entry.source = state ↔ entry.transition.source = key := by
        constructor
        · rintro rfl
          exact forest.eq_of_indexOf? sourceFound found
        · rintro rfl
          exact Option.some.inj (sourceFound.symm.trans found)
      rw [Function.comp_apply, Bool.eq_iff_iff, Bool.and_eq_true, beq_iff_eq, beq_iff_eq,
        decide_eq_true_iff, same]

end Building

/-! ## Adding one transition after the other -/

/-- Tries to add a transition. A table that refuses it is kept. -/
def register
    (graph : Graph κ)
    (table : Table κ τ ω)
    (transition : Transition κ τ ω) : Except ConfigurationError Unit × Table κ τ ω :=
  match table.add graph transition with
  | .error problem => (.error problem, table)
  | .ok larger => (.ok (), larger)

/-- Tries to add one transition after the other. There is a verdict on each of them. -/
def registerAll (graph : Graph κ) :
    List (Transition κ τ ω) → Table κ τ ω →
      List (Except ConfigurationError Unit) × Table κ τ ω
  | [], table => ([], table)
  | transition :: transitions, table =>
      let step := table.register graph transition
      let rest := registerAll graph transitions step.2
      (step.1 :: rest.1, rest.2)

/-- What is to be said about a transition that is added. -/
structure IsVerdict
    (graph : Graph κ)
    (transition : Transition κ τ ω)
    (verdict : Except ConfigurationError Unit) : Prop where
  /-- It is added exactly if it can be registered. -/
  ok_iff : verdict = .ok () ↔ transition.IsRegistrable graph
  /-- It is refused with what is to be reported about it. -/
  error_iff {problem : ConfigurationError} :
    verdict = .error problem ↔ Blames graph transition problem

/-- The problems among some verdicts. -/
def refusals (verdicts : List (Except ConfigurationError Unit)) : List ConfigurationError :=
  verdicts.filterMap fun
    | .error problem => some problem
    | .ok _ => none

/-- Whether a transition is added depends on its check alone. -/
theorem register_eq
    (graph : Graph κ)
    (table : Table κ τ ω)
    (transition : Transition κ τ ω) :
    table.register graph transition =
      ((entryOf graph transition).map fun _ => (),
        ⟨table.entries ++ (entryOf graph transition).toOption.toList⟩) := by
  rw [register, add]
  cases entryOf graph transition with
  | error problem => simp [Except.map, Except.toOption]
  | ok entry => rfl

/-- The table grows by the entries of the transitions that can be registered, and the verdict
on each transition is the one it would get alone. -/
theorem registerAll_eq
    (graph : Graph κ)
    (transitions : List (Transition κ τ ω))
    (table : Table κ τ ω) :
    registerAll graph transitions table =
      (transitions.map fun transition => (empty.register graph transition).1,
        ⟨table.entries ++ accepted graph transitions⟩) := by
  induction transitions generalizing table with
  | nil => simp [registerAll, accepted]
  | cons transition transitions inductionHypothesis =>
      simp only [registerAll, inductionHypothesis, register_eq, accepted, List.map_cons,
        List.filterMap_cons, List.append_assoc]
      cases entryOf graph transition with
      | error problem => rfl
      | ok entry => rfl

theorem refusals_verdicts
    (graph : Graph κ)
    (transitions : List (Transition κ τ ω)) :
    refusals (transitions.map fun transition => (empty.register graph transition).1) =
      problems graph transitions := by
  rw [refusals, problems, List.filterMap_map]
  refine List.filterMap_congr fun transition _ => ?_
  rw [Function.comp_apply, register_eq]
  cases entryOf graph transition with
  | error problem => rfl
  | ok entry => rfl

/-- Building a table is adding one transition after the other and looking at the verdicts. -/
theorem build_eq_registerAll
    (graph : Graph κ)
    (transitions : List (Transition κ τ ω)) :
    build graph transitions =
      (ConfigurationError.verdict (refusals (registerAll graph transitions empty).1)).map
        fun _ => (registerAll graph transitions empty).2 := by
  rw [registerAll_eq, refusals_verdicts, build]
  rfl

section Forest

variable (forest : graph.IsForest)

include forest

/-- What is said about a transition that is added depends on the graph alone. -/
theorem isVerdict_register (table : Table κ τ ω) (transition : Transition κ τ ω) :
    IsVerdict graph transition (table.register graph transition).1 := by
  rw [register_eq]
  constructor
  · rw [← exists_entryOf_iff forest]
    cases entryOf graph transition with
    | error problem => simp [Except.map]
    | ok entry => simp [Except.map]
  · intro problem
    rw [← entryOf_eq_error_iff forest]
    cases entryOf graph transition with
    | error problem => simp [Except.map]
    | ok entry => simp [Except.map]

/-- A table that refuses a transition is kept. -/
theorem Blames.register_eq
    {problem : ConfigurationError}
    (blames : Blames graph transition problem)
    (table : Table κ τ ω) :
    table.register graph transition = (.error problem, table) := by
  rw [Table.register_eq, blames.entryOf_eq forest]
  simp [Except.map, Except.toOption]

/-- Refused transitions make no difference to the table. -/
theorem accepted_filter (transitions : List (Transition κ τ ω)) :
    accepted graph (transitions.filter fun transition => transition.IsRegistrable graph) =
      accepted graph transitions := by
  rw [accepted, List.filterMap_filter]
  refine List.filterMap_congr fun transition _ => ?_
  by_cases registrable : transition.IsRegistrable graph
  · rw [if_pos (decide_eq_true registrable)]
  · rw [if_neg (by simpa using registrable)]
    cases checked : entryOf graph transition with
    | error problem => rfl
    | ok entry => exact absurd ((exists_entryOf_iff forest).mp ⟨entry, checked⟩) registrable

/-- The table that is left after adding one transition after the other is built of those that
can be registered. -/
theorem build_filter (transitions : List (Transition κ τ ω)) :
    build graph (transitions.filter fun transition => transition.IsRegistrable graph) =
      .ok (registerAll graph transitions empty).2 := by
  rw [build_eq_ok_iff, registerAll_eq, problems_eq_nil_iff forest, accepted_filter forest]
  refine ⟨fun transition member => ?_, rfl⟩
  exact of_decide_eq_true (List.mem_filter.mp member).2

end Forest
end Table
end Statechart
