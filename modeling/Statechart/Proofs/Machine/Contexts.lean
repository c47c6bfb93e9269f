import Statechart.Proofs.Graph.Kinship
import Statechart.Proofs.Machine.Evolution
import Statechart.Proofs.Machine.Telling

/-!
# What observers are told of the selected transition

The observers of an event are handed a context. It names the source and the target of the
transition that was selected, if any was. The source is active when the event begins. The
target is told as the transition names it: an external transition names one, and an internal
transition may name its own source.
-/

namespace Statechart

variable {κ τ ω : Type}

/-! ## Accepted entries -/

section Entries

variable [DecidableEq κ] [StateKey κ] [Inspect τ]

/-- An accepted entry leads to the target of its transition. -/
theorem Table.target_of_entryOf
    {graph : Graph κ}
    (forest : graph.IsForest)
    {transition : Transition κ τ ω}
    {entry : Entry κ τ ω}
    (accepted : entryOf graph transition = .ok entry) :
    entry.target.bind graph.key? = transition.target := by
  obtain ⟨_, _, ⟨untargeted, rfl⟩ | ⟨key, target, named, found, _, _, rfl⟩⟩ :=
    entryOf_eq_ok accepted
  · rw [untargeted]
    rfl
  · rw [named, Option.bind_some, forest.indexOf?_eq_some_iff.mp found]

/-- An accepted entry has the kind of its transition in effect. An internal one names no target
or its own source, and an external one names a target. -/
theorem Table.kind_of_entryOf
    {graph : Graph κ}
    (forest : graph.IsForest)
    {transition : Transition κ τ ω}
    {entry : Entry κ τ ω}
    (accepted : entryOf graph transition = .ok entry) :
    entry.kind = transition.effectiveKind ∧
      (entry.kind = .internal →
        transition.target = none ∨ transition.target = some transition.source) ∧
      (entry.kind = .external → ∃ target, transition.target = some target) := by
  obtain ⟨source, sourceFound, ⟨untargeted, rfl⟩ | ⟨key, target, named, found, stays, _, rfl⟩⟩ :=
    entryOf_eq_ok accepted
  · have internal : transition.effectiveKind = .internal := by
      rw [Transition.effectiveKind, untargeted]
      rfl
    exact ⟨rfl, fun _ => .inl untargeted, fun external => by simp [internal] at external⟩
  · refine ⟨rfl, fun internal => .inr ?_, fun _ => ⟨key, named⟩⟩
    obtain rfl := stays internal
    rw [named, forest.eq_of_indexOf? found sourceFound]

end Entries

/-! ## The context of an event -/

namespace Account

variable
  [DecidableEq κ]
  [StateKey κ]
  [DecidableEq τ]
  [Inspect τ]
  {definition : Definition κ τ ω}
  {account : Account κ τ ω}

/-- The context of an event describes the transition that was selected. The snapshot is the one
that was shown when the event began. -/
structure DescribesSelection
    (definition : Definition κ τ ω)
    (shown : Snapshot κ)
    (account : Account κ τ ω) : Prop where
  /-- Guards were asked and steps were taken as they should be. -/
  isRight : account.IsRight definition
  /-- Apart from the begin, everything that observers hear of the event comes with the
  context. -/
  told {observer : Nat} {notification : Notification κ τ} :
    .notified observer notification ∈ account.deeds definition →
      notification = .begin (account.begun definition) ∨
        notification.context? = some (account.context definition)
  /-- The context names a source exactly if a transition was selected. -/
  source_iff :
    (account.context definition).source.isSome = true ↔
      ∃ transition, .selected transition ∈ account.deeds definition
  /-- The source is active when the event begins. -/
  source_active {source : κ} : (account.context definition).source = some source →
    ∃ state, definition.graph.indexOf? source = some state ∧
      account.before.configuration.isActive state = true
  /-- The source is or contains one of the leaves that were shown. -/
  source_above {source : κ} : (account.context definition).source = some source →
    ∃ leaf ∈ shown.active, source ∈ definition.graph.ancestors leaf
  /-- The context names what the selected transition names. -/
  selected {entry : Entry κ τ ω} : account.chosen = some entry →
    entry ∈ definition.table.entries ∧
      (account.context definition).source = some entry.transition.source ∧
      (account.context definition).target = entry.transition.target ∧
      (account.context definition).transition = some entry.transition.describe
  /-- The target of an external transition is told. -/
  external {entry : Entry κ τ ω} : account.chosen = some entry →
    entry.transition.effectiveKind = .external →
      ∃ target, entry.transition.target = some target ∧
        (account.context definition).target = some target
  /-- An internal transition has no target to tell, or the source that it names as its
  target. -/
  internal {entry : Entry κ τ ω} : account.chosen = some entry →
    entry.transition.effectiveKind = .internal →
      entry.transition.target = none ∧ (account.context definition).target = none ∨
        entry.transition.target = some entry.transition.source ∧
          (account.context definition).target = (account.context definition).source
  /-- If nothing was selected the context names nothing. -/
  unselected : account.chosen = none →
    (account.context definition).source = none ∧ (account.context definition).target = none ∧
      (account.context definition).transition = none

omit [DecidableEq κ] [DecidableEq τ] in
/-- Failures and the end of an event are told with its context. -/
theorem context?_of_mem_reporting
    {observer : Nat}
    {notification : Notification κ τ}
    (member : .notified observer notification ∈
      reporting definition.observers (account.context definition) (account.closing definition)) :
    notification.context? = some (account.context definition) := by
  obtain ⟨other, listed, member⟩ := List.mem_flatMap.mp member
  obtain ⟨_, _, same⟩ := List.mem_map.mp member
  cases same
  rcases List.mem_append.mp listed with failure | last
  · obtain ⟨_, _, rfl⟩ := List.mem_map.mp failure
    rfl
  · rw [closing] at last
    split at last
    · rw [List.mem_singleton.mp last]
      rfl
    · rw [List.mem_singleton.mp last]
      rfl
    · contradiction

omit [DecidableEq κ] [DecidableEq τ] in
/-- The context of a selected transition names its source, its target and its text. -/
theorem context_of_chosen
    {entry : Entry κ τ ω}
    (chosen : account.chosen = some entry) :
    (account.context definition).source = some entry.transition.source ∧
      (account.context definition).target = entry.target.bind definition.graph.key? ∧
      (account.context definition).transition = some entry.transition.describe := by
  rw [context, chosen]
  exact ⟨rfl, rfl, rfl⟩

omit [DecidableEq κ] [DecidableEq τ] in
theorem context_of_unchosen (unchosen : account.chosen = none) :
    (account.context definition).source = none ∧ (account.context definition).target = none ∧
      (account.context definition).transition = none := by
  rw [context, unchosen]
  exact ⟨rfl, rfl, rfl⟩

/-- A right account of an event that begins in a consistent configuration describes the
selection. -/
theorem IsRight.describesSelection
    (isRight : account.IsRight definition)
    (wellFormed : definition.IsWellFormed)
    (fits : definition.table.Fits definition.graph)
    (consistent : account.before.configuration.IsConsistent definition.graph) :
    account.DescribesSelection definition (account.before.snapshot definition) := by
  have forest := wellFormed.forest
  have accepted {entry : Entry κ τ ω} (chosen : account.chosen = some entry) :
      Table.entryOf definition.graph entry.transition = .ok entry :=
    fits entry (isRight.source_active wellFormed consistent chosen).1
  have source_active {source : κ} (named : (account.context definition).source = some source) :
      ∃ state, definition.graph.indexOf? source = some state ∧
        account.before.configuration.isActive state = true := by
    cases chosen : account.chosen with
    | none => simp [(context_of_unchosen chosen).1] at named
    | some entry =>
        rw [(context_of_chosen chosen).1] at named
        cases named
        exact ⟨entry.source, (Table.source_of_entryOf (accepted chosen)).2,
          (isRight.source_active wellFormed consistent chosen).2⟩
  have target_eq {entry : Entry κ τ ω} (chosen : account.chosen = some entry) :
      (account.context definition).target = entry.transition.target :=
    (context_of_chosen chosen).2.1.trans (Table.target_of_entryOf forest (accepted chosen))
  exact {
    isRight
    told := by
      intro observer notification member
      rcases List.mem_append.mp member with early | late
      · exact .inl (isRight.eq_begin_of_mem_early early)
      · rcases List.mem_cons.mp late with published | reported
        · contradiction
        · exact .inr (context?_of_mem_reporting reported)
    source_iff := by
      rw [isRight.selected_iff]
      cases chosen : account.chosen with
      | none => simp [(context_of_unchosen chosen).1]
      | some entry => simp [(context_of_chosen chosen).1]
    source_active
    source_above := by
      intro source named
      obtain ⟨state, found, active⟩ := source_active named
      obtain ⟨leaf, isLeaf, within⟩ := Configuration.exists_leaf_within forest active
      obtain ⟨key, isKey⟩ := Graph.exists_key
        (forest.lt_size_of_within within (Graph.lt_size_of_indexOf? found))
      exact ⟨key, List.mem_filterMap.mpr
          ⟨leaf, (Configuration.mem_leaves_iff forest consistent.flags_size).mpr isLeaf, isKey⟩,
        (forest.mem_ancestors_iff_within (forest.indexOf?_eq_some_iff.mpr isKey) found).mpr within⟩
    selected := by
      intro entry chosen
      exact ⟨(isRight.source_active wellFormed consistent chosen).1,
        (context_of_chosen chosen).1, target_eq chosen, (context_of_chosen chosen).2.2⟩
    external := by
      intro entry chosen external
      obtain ⟨kind_eq, _, targeted⟩ := Table.kind_of_entryOf forest (accepted chosen)
      obtain ⟨target, named⟩ := targeted (kind_eq.trans external)
      exact ⟨target, named, (target_eq chosen).trans named⟩
    internal := by
      intro entry chosen internal
      obtain ⟨kind_eq, stays, _⟩ := Table.kind_of_entryOf forest (accepted chosen)
      rw [target_eq chosen, (context_of_chosen chosen).1]
      rcases stays (kind_eq.trans internal) with untargeted | named
      · exact .inl ⟨untargeted, untargeted⟩
      · exact .inr ⟨named, named⟩
    unselected := context_of_unchosen }

end Account

namespace Course

variable
  [DecidableEq κ]
  [StateKey κ]
  [DecidableEq τ]
  [Inspect τ]
  {definition : Definition κ τ ω}

/-- Whatever happens in the course of time, the context of each event describes the transition
that was selected for it. -/
theorem describesSelections
    {draft : MachineDraft κ τ ω}
    (built : draft.build = .ok definition) :
    (∀ run : Run definition, ∃ course : Course definition,
      course.beginning = run.beginning ∧ course.scene = run.machine.scene) ∧
      ∀ course : Course definition, ∃ chronicle : Chronicle κ τ ω,
        course.scene.machine.session.deeds = chronicle.deeds definition ∧
          chronicle.EachEvent definition course.blank
            fun shown account => account.DescribesSelection definition shown := by
  have wellFormed := Definition.isWellFormed_of_build built
  have fits := Definition.fits_of_build built
  refine ⟨fun run => run.exists_course, fun course => ?_⟩
  obtain ⟨work, chronicle, begins, unfolds⟩ := course.exists_unfolds_of_begins built
  refine ⟨chronicle, unfolds.deeds_eq, unfolds.stage.eachEvent wellFormed.forest fits begins.opens
    course.scene.machine.session course.blank ?_⟩
  intro opened accounts first account opens handles isRight
  have consistent := (begins.evolves_handles wellFormed opens handles).2
  exact isRight.describesSelection wellFormed fits consistent

/-! ## An example -/

open Run (crossing crossingDraft midnight)

/-- A machine with an observer and a transition that is internal although it names a target,
which is its source. -/
def restingDraft : MachineDraft String String Unit :=
  { crossingDraft [] with
    transitions := [⟨"red", some "red", "rest", none, [], .internal⟩]
    observers := [silentObserver] }

/-- What the draft describes. -/
def resting : Definition String String Unit :=
  { crossing [] with
    table := ⟨[⟨⟨"red", some "red", "rest", none, [], .internal⟩, 1, some 1, .internal⟩]⟩
    observers := [silentObserver] }

/-- A course in which the transition is selected once. -/
def restingCourse : Course resting where
  clock := midnight
  world := ()
  beginning := .start
  first :=
    let machine := Machine.new resting midnight ()
    Scene.launched machine 0 (Work.enterInitial resting machine.freshWorker)
  accepted := rfl
  moves := .operation (.fire (.new .nil "rest")) :: List.replicate 30 (.operation .advance)

/-- The context of the only event names what the transition names. -/
theorem describesSelections_resting :
    restingDraft.build = .ok resting ∧
      ∃ chronicle : Chronicle String String Unit,
        restingCourse.scene.machine.session.deeds = chronicle.deeds resting ∧
          chronicle.EachEvent resting restingCourse.blank
            fun shown account => account.DescribesSelection resting shown := by
  have built : restingDraft.build = .ok resting := by cbv
  exact ⟨built, (describesSelections built).2 restingCourse⟩

/-- All transitions of the machine are internal, and still the observer hears of a target when
one of them is completed. -/
theorem hears_target_of_internal :
    restingDraft.build = .ok resting ∧
      (∀ transition ∈ restingDraft.transitions, transition.effectiveKind = .internal) ∧
      (received 0 restingCourse.scene.machine.session.deeds).map
          (fun notification => (notification.kind, notification.context?.bind Context.target)) =
        [("begin", none), ("completed", some "red")] := by
  refine ⟨by cbv, ?_, by cbv⟩
  intro transition listed
  rw [List.mem_singleton.mp listed]
  rfl

end Course
end Statechart
