import Statechart.Machine.Worker
import Statechart.Proofs.Machine.Run
import Statechart.Proofs.Table.Candidates

/-!
# The selection of a transition

A worker asks the guards of the candidates one after the other until a transition is
allowed. This comes to the same as a plain search: walk up from every leaf to its root,
keep every state where it is met first, list the transitions of these states, and take the
first one that has no guard or whose guard allows it. The guards that are asked are those
of the candidates up to the selected one, and each fault among their answers is reported
under the state of its own transition.
-/

namespace Statechart

variable {κ τ ω α : Type}

/-! ## The guards that have been asked -/

/-- The source and the answer of a guard that was asked. -/
def Activity.asked? : Activity κ τ → Option (Nat × Except GuardFault Bool)
  | .asked source verdict => some (source, verdict)
  | _ => none

namespace Session

/-- The guards that have been asked, with their answers, the earliest first. -/
def asked (session : Session κ τ ω) : List (Nat × Except GuardFault Bool) :=
  session.activities.filterMap Activity.asked?

theorem asked_note (session : Session κ τ ω) (activity : Activity κ τ) :
    (session.note activity).asked = session.asked ++ activity.asked?.toList := by
  rw [asked, activities, note, List.reverse_cons, List.filterMap_append]
  cases taken : activity.asked? with
  | none => simp [taken, asked, activities]
  | some _ => simp [taken, asked, activities]

theorem asked_fire (session : Session κ τ ω) (event : Event τ) :
    (session.fire event).2.asked = session.asked := by
  unfold fire
  split
  · rfl
  · rfl
  · simp only
    split
    · rw [asked_note]
      exact List.append_nil _
    · rw [asked_note]
      exact List.append_nil _

end Session

/-- A program asks no guard. -/
theorem Program.asked_run
    (program : Program κ τ α)
    (session : Session κ τ ω) :
    (program.run session).2.asked = session.asked := by
  induction program generalizing session with
  | done result => rfl
  | fire event next inductionHypothesis =>
      rw [run_fire, inductionHypothesis, session.asked_fire]
  | look next inductionHypothesis =>
      rw [run_look, inductionHypothesis, session.asked_note]
      exact List.append_nil _
  | log entry next inductionHypothesis =>
      rw [run_log, inductionHypothesis, session.asked_note]
      exact List.append_nil _

/-- A callback asks no guard. -/
theorem Session.asked_call (session : Session κ τ ω) (callback : Callback κ τ ω α) :
    (session.call callback).2.asked = session.asked :=
  Program.asked_run (callback session.world) session

namespace Definition

/-! ## The first allowed entry -/

section Selects

variable [StateKey κ] [Inspect τ]

/-- The failure that an answer about an entry counts as. -/
def faultOf?
    (event : Event τ)
    (answer : Entry κ τ ω × Except GuardFault Bool) : Option StepError :=
  match answer.2 with
  | .ok _ => none
  | .error fault =>
      some (.ofGuardFault (StateKey.name answer.1.transition.source) (inspect event.trigger) fault)

/-- What becomes of candidates when the first allowed one is searched by asking their
guards: which guards are asked with which answers, which entry is selected, and which
faults are reported. -/
structure Selects
    (event : Event τ)
    (candidates : List (Entry κ τ ω))
    (answers : List (Entry κ τ ω × Except GuardFault Bool))
    (chosen : Option (Entry κ τ ω))
    (faults : List StepError) : Prop where
  /-- Only guards are asked. -/
  guarded : ∀ answer ∈ answers, answer.1.transition.guard.isSome = true
  /-- Without a winner all candidates have been asked, and none was allowed. -/
  exhausted : chosen = none →
    answers.map Prod.fst = candidates ∧ ∀ answer ∈ answers, answer.2 ≠ .ok true
  /-- A winner comes right behind the candidates that were asked and not allowed. It has no
  guard, or its guard is asked last and allows it. -/
  first_allowed {winner : Entry κ τ ω} : chosen = some winner →
    ∃ denied later, candidates = denied.map Prod.fst ++ winner :: later ∧
      (∀ answer ∈ denied, answer.2 ≠ .ok true) ∧
        (winner.transition.guard = none ∧ answers = denied ∨
          winner.transition.guard.isSome = true ∧ answers = denied ++ [(winner, .ok true)])
  /-- The faults are those of the answers, in order. -/
  faults_eq : faults = answers.filterMap (faultOf? event)

variable
  {event : Event τ}
  {entry : Entry κ τ ω}
  {candidates : List (Entry κ τ ω)}
  {answers : List (Entry κ τ ω × Except GuardFault Bool)}
  {chosen : Option (Entry κ τ ω)}
  {faults : List StepError}

/-- Among no candidates nothing is selected. -/
theorem selects_nil : Selects event ([] : List (Entry κ τ ω)) [] none [] where
  guarded := by simp
  exhausted := by simp
  first_allowed := by simp
  faults_eq := rfl

/-- A first candidate without a guard is selected. -/
theorem selects_of_unguarded (unguarded : entry.transition.guard = none) :
    Selects event (entry :: candidates) [] (some entry) [] where
  guarded := by simp
  exhausted := by simp
  first_allowed := by
    rintro winner ⟨rfl⟩
    exact ⟨[], candidates, rfl, by simp, .inl ⟨unguarded, rfl⟩⟩
  faults_eq := rfl

/-- A first candidate whose guard allows it is selected. -/
theorem selects_of_allowed (guarded : entry.transition.guard.isSome = true) :
    Selects event (entry :: candidates) [(entry, .ok true)] (some entry) [] where
  guarded := by simp [guarded]
  exhausted := by simp
  first_allowed := by
    rintro winner ⟨rfl⟩
    exact ⟨[], candidates, rfl, by simp, .inr ⟨guarded, rfl⟩⟩
  faults_eq := rfl

namespace Selects

/-- Behind a first candidate whose guard does not allow it the search goes on. -/
theorem of_denied
    (selects : Selects event candidates answers chosen faults)
    (guarded : entry.transition.guard.isSome = true)
    {verdict : Except GuardFault Bool}
    (denied : verdict ≠ .ok true) :
    Selects event (entry :: candidates) ((entry, verdict) :: answers) chosen
      ((faultOf? event (entry, verdict)).toList ++ faults) where
  guarded := by
    intro answer member
    rcases List.mem_cons.mp member with rfl | member
    · exact guarded
    · exact selects.guarded answer member
  exhausted := by
    intro nothing
    obtain ⟨all, denials⟩ := selects.exhausted nothing
    refine ⟨by rw [List.map_cons, all], fun answer member => ?_⟩
    rcases List.mem_cons.mp member with rfl | member
    · exact denied
    · exact denials answer member
  first_allowed := by
    intro winner isWinner
    obtain ⟨others, later, candidates_eq, denials, last⟩ := selects.first_allowed isWinner
    refine ⟨(entry, verdict) :: others, later, by rw [candidates_eq]; rfl, ?_, ?_⟩
    · intro answer member
      rcases List.mem_cons.mp member with rfl | member
      · exact denied
      · exact denials answer member
    · rcases last with ⟨unguarded, rfl⟩ | ⟨isGuarded, rfl⟩
      · exact .inl ⟨unguarded, rfl⟩
      · exact .inr ⟨isGuarded, rfl⟩
  faults_eq := by
    rw [selects.faults_eq, List.filterMap_cons]
    cases faultOf? event (entry, verdict) with
    | none => rfl
    | some fault => rfl

/-- The candidates that are asked come first, in order. -/
theorem asked_isPrefix (selects : Selects event candidates answers chosen faults) :
    answers.map Prod.fst <+: candidates := by
  cases outcome : chosen with
  | none =>
      obtain ⟨all, _⟩ := selects.exhausted outcome
      rw [all]
  | some winner =>
      obtain ⟨denied, later, candidates_eq, _, ⟨_, rfl⟩ | ⟨_, rfl⟩⟩ :=
        selects.first_allowed outcome
      · exact ⟨winner :: later, candidates_eq.symm⟩
      · refine ⟨later, ?_⟩
        rw [candidates_eq, List.map_append, List.append_assoc]
        rfl

end Selects
end Selects

/-! ## Asking one guard after the other -/

/-- Asks about some entries one after the other, whatever the answers. -/
def consultEach (event : Event τ) :
    List (Entry κ τ ω) → Session κ τ ω → List (Except GuardFault Bool) × Session κ τ ω
  | [], session => ([], session)
  | entry :: entries, session =>
      let (verdict, session) := consult session entry event
      let (verdicts, session) := consultEach event entries session
      (verdict :: verdicts, session)

theorem consult_of_unguarded
    {entry : Entry κ τ ω}
    (unguarded : entry.transition.guard = none)
    (session : Session κ τ ω)
    (event : Event τ) :
    consult session entry event = (.ok true, session) := by
  rw [consult, unguarded]

/-- Asking a guard is recorded with its answer. -/
theorem asked_consult_of_guarded
    {entry : Entry κ τ ω}
    (guarded : entry.transition.guard.isSome = true)
    (session : Session κ τ ω)
    (event : Event τ) :
    (consult session entry event).2.asked =
      session.asked ++ [(entry.source, (consult session entry event).1)] := by
  obtain ⟨guard, guarded⟩ := Option.isSome_iff_exists.mp guarded
  unfold consult
  rw [guarded]
  simp only [Session.asked_note, Session.asked_call]
  rfl

/-- Asking guards one after the other is recorded with their answers. -/
theorem asked_consultEach
    (event : Event τ)
    {answers : List (Entry κ τ ω × Except GuardFault Bool)}
    (guarded : ∀ answer ∈ answers, answer.1.transition.guard.isSome = true)
    {session : Session κ τ ω}
    (consulted : (consultEach event (answers.map Prod.fst) session).1 = answers.map Prod.snd) :
    (consultEach event (answers.map Prod.fst) session).2.asked =
      session.asked ++ answers.map fun answer => (answer.1.source, answer.2) := by
  induction answers generalizing session with
  | nil => exact (List.append_nil _).symm
  | cons answer answers inductionHypothesis =>
      obtain ⟨entry, verdict⟩ := answer
      simp only [List.map_cons, consultEach, List.cons.injEq] at consulted ⊢
      rw [inductionHypothesis (fun other member => guarded other (List.mem_cons_of_mem _ member))
          consulted.2,
        asked_consult_of_guarded (guarded (entry, verdict) List.mem_cons_self), consulted.1,
        List.append_assoc]
      rfl

/-- A search has selected an entry by asking guards in a session, and has done nothing
else. -/
structure FindsFirst
    [StateKey κ]
    [Inspect τ]
    (event : Event τ)
    (candidates : List (Entry κ τ ω))
    (before : Session κ τ ω)
    (answers : List (Entry κ τ ω × Except GuardFault Bool))
    (found : Option (Entry κ τ ω) × List StepError × Session κ τ ω) : Prop where
  /-- The answers decide what is selected and which faults are reported. -/
  selects : Selects event candidates answers found.1 found.2.1
  /-- Each guard gives its answer in the session that the one before has left. -/
  consulted : (consultEach event (answers.map Prod.fst) before).1 = answers.map Prod.snd
  /-- Only the winner is noted in addition. -/
  session_eq : found.2.2 =
    found.1.elim (consultEach event (answers.map Prod.fst) before).2 fun winner =>
      (consultEach event (answers.map Prod.fst) before).2.note
        (.selected winner.transition.describe)

/-- The guards that are asked are recorded with their answers, and no others are. -/
theorem FindsFirst.asked_eq
    [StateKey κ]
    [Inspect τ]
    {event : Event τ}
    {candidates : List (Entry κ τ ω)}
    {before : Session κ τ ω}
    {answers : List (Entry κ τ ω × Except GuardFault Bool)}
    {found : Option (Entry κ τ ω) × List StepError × Session κ τ ω}
    (finds : FindsFirst event candidates before answers found) :
    found.2.2.asked = before.asked ++ answers.map fun answer => (answer.1.source, answer.2) := by
  rw [finds.session_eq, ← asked_consultEach event finds.selects.guarded finds.consulted]
  cases found.1 with
  | none => rfl
  | some winner => exact (Session.asked_note _ _).trans (List.append_nil _)

variable [DecidableEq κ] [StateKey κ] [Inspect τ]

/-- Choosing among entries that fit the graph finds the first allowed one. -/
theorem exists_findsFirst_choose
    {definition : Definition κ τ ω}
    (forest : definition.graph.IsForest)
    (event : Event τ)
    {candidates : List (Entry κ τ ω)}
    (fits : ∀ entry ∈ candidates,
      Table.entryOf definition.graph entry.transition = .ok entry)
    (session : Session κ τ ω) :
    ∃ answers, FindsFirst event candidates session answers
      (definition.choose event candidates session) := by
  induction candidates generalizing session with
  | nil => exact ⟨[], selects_nil, rfl, rfl⟩
  | cons entry candidates inductionHypothesis =>
      have name_eq := Table.nameOf_source_of_entryOf forest (fits entry List.mem_cons_self)
      cases guarded : entry.transition.guard with
      | none =>
          refine ⟨[], ?_⟩
          rw [choose, consult_of_unguarded guarded]
          exact ⟨selects_of_unguarded guarded, rfl, rfl⟩
      | some guard =>
          have isGuarded : entry.transition.guard.isSome = true := by rw [guarded]; rfl
          obtain ⟨answers, finds⟩ := inductionHypothesis
            (fun other member => fits other (List.mem_cons_of_mem _ member))
            (consult session entry event).2
          rw [choose]
          rcases answered : consult session entry event with ⟨verdict, between⟩
          rw [answered] at finds
          -- The answers of the rest are given in the session that the first guard has left.
          have consulted : (consultEach event (entry :: answers.map Prod.fst) session).1 =
              verdict :: answers.map Prod.snd := by
            simp only [consultEach, answered, finds.consulted]
          have session_eq : (consultEach event (entry :: answers.map Prod.fst) session).2 =
              (consultEach event (answers.map Prod.fst) between).2 := by
            simp only [consultEach, answered]
          cases verdict with
          | ok allowed =>
              cases allowed with
              | true =>
                  refine ⟨[(entry, .ok true)], selects_of_allowed isGuarded, ?_, ?_⟩
                  · simp only [List.map_cons, List.map_nil, consultEach, answered]
                  · simp only [List.map_cons, List.map_nil, consultEach, answered]
                    rfl
              | false =>
                  refine ⟨(entry, .ok false) :: answers,
                    finds.selects.of_denied isGuarded (by simp), consulted, ?_⟩
                  rw [List.map_cons, session_eq]
                  exact finds.session_eq
          | error fault =>
              simp only [name_eq]
              refine ⟨(entry, .error fault) :: answers,
                finds.selects.of_denied isGuarded (by simp), consulted, ?_⟩
              rw [List.map_cons, session_eq]
              exact finds.session_eq

/-! ## The plain search -/

/-- The selection of a transition is the plain search among the transitions above the
leaves. No guard is asked twice about an event, nor is one that belongs to an inactive
state. -/
theorem choose_agrees_with_plain_search
    [DecidableEq τ]
    {η : Type}
    {blueprint : Blueprint κ η}
    {definition : Definition κ τ ω}
    (validated : blueprint.validate = .ok definition.graph)
    (fits : definition.table.Fits definition.graph)
    {configuration : Configuration}
    (consistent : configuration.IsConsistent definition.graph)
    (event : Event τ)
    (session : Session κ τ ω) :
    ∃ answers,
      FindsFirst event
          (Table.plainCandidates definition.graph definition.table
            (configuration.leaves definition.graph) event.trigger)
          session answers
          (definition.choose event
            (definition.table.candidatesFrom definition.graph
              (configuration.leaves definition.graph) event.trigger)
            session) ∧
        (answers.map Prod.fst).Subperm definition.table.entries ∧
        ∀ answer ∈ answers, configuration.isActive answer.1.source = true := by
  have forest := blueprint.isForest_of_validate validated
  let leaves := configuration.leaves definition.graph
  let candidates := Table.plainCandidates definition.graph definition.table leaves event.trigger
  have subperm : candidates.Subperm definition.table.entries :=
    Table.plainCandidates_subperm definition.graph definition.table leaves event.trigger
  obtain ⟨answers, finds⟩ := exists_findsFirst_choose forest event
    (fun entry member => fits entry (subperm.subset member)) session
  have asked_first := finds.selects.asked_isPrefix
  rw [Table.candidatesFrom_eq_plainCandidates forest]
  refine ⟨answers, finds, asked_first.sublist.subperm.trans subperm, fun answer member => ?_⟩
  obtain ⟨leaf, isLeaf, within⟩ := Table.exists_leaf_of_mem_plainCandidates
    (asked_first.subset (List.mem_map_of_mem member))
  have leafActive := (Configuration.mem_leaves_iff forest consistent.flags_size).mp isLeaf
  exact consistent.active_of_within forest ((Configuration.isLeaf_iff forest).mp leafActive).1
    within

/-- A chart with two regions in which five transitions handle the same trigger. -/
def checkingDraft : MachineDraft String String Unit :=
  let transition (source : String) (guard : Guard String String Unit) :
      Transition String String Unit :=
    { Transition.internal source "check" with guard := some guard }
  let answering (outcome : Outcome Bool) : Guard String String Unit :=
    .ignoring fun world => .done (outcome, world)
  { MachineDraft.empty with blueprint := Blueprint.twoRegions _ }.addTransitions
    [transition "on" (answering (.panicked .unknown)),
      transition "mute" (answering (.returned true)),
      transition "red" (.typed .char fun _ world => .done (.returned true, world)),
      transition "on" (answering (.returned false)),
      transition "mute" (answering (.panicked .unknown))]

/-- What the draft describes. -/
def checking : Definition String String Unit where
  graph := (Blueprint.twoRegions Unit).graph
  table := ⟨checkingDraft.transitions.filterMap fun transition =>
    (Table.entryOf (Blueprint.twoRegions Unit).graph transition).toOption⟩
  hooks := checkingDraft.blueprint.hooks
  observers := []
  settings := .standard

/-- The initial configuration of the chart. -/
def redMute : Configuration := ⟨#[true, true, false, true, false]⟩

/-- An event with the trigger of all five transitions. -/
def checkEvent : Event String := .new .nil "check"

/-- What the selection for the event gives. -/
def checkingSelection :
    Option (Entry String String Unit) × List StepError × Session String String Unit :=
  checking.choose checkEvent
    (checking.table.candidatesFrom checking.graph (redMute.leaves checking.graph)
      checkEvent.trigger)
    (Session.initial .standard Run.midnight ())

/-- The composite state is above both leaves, and its guards are asked once, on the way up
from the first of them. The last guard is not asked. -/
theorem choose_agrees_with_plain_search_checking :
    (Blueprint.twoRegions Unit).validate = .ok checking.graph ∧
      Table.build checking.graph checkingDraft.transitions = .ok checking.table ∧
      redMute.IsConsistent checking.graph ∧
      checkingSelection.2.1 =
        [.guardMismatch "red" "\"check\"" ⟨"char", "()"⟩,
          .guardPanicked "on" "\"check\"" "unknown panic"] ∧
      checkingSelection.2.2.asked.map Prod.fst = [1, 0, 0, 3] ∧
      ∃ answers,
        FindsFirst checkEvent
            (Table.plainCandidates checking.graph checking.table (redMute.leaves checking.graph)
              checkEvent.trigger)
            (Session.initial .standard Run.midnight ()) answers checkingSelection ∧
          (answers.map Prod.fst).Subperm checking.table.entries ∧
          ∀ answer ∈ answers, redMute.isActive answer.1.source = true := by
  have validated : (Blueprint.twoRegions Unit).validate = .ok checking.graph :=
    Blueprint.validate_twoRegions Unit
  have built : Table.build checking.graph checkingDraft.transitions = .ok checking.table := by cbv
  have consistent : redMute.IsConsistent checking.graph := by
    have restored : Configuration.ofLeaves checking.graph [1, 3] = .ok redMute := by cbv
    exact Configuration.isConsistent_of_ofLeaves
      ((Blueprint.twoRegions Unit).isForest_of_validate validated) restored
  exact ⟨validated, built, consistent, by cbv, by cbv,
    choose_agrees_with_plain_search validated (Table.fits_of_build built) consistent
      checkEvent (Session.initial .standard Run.midnight ())⟩

end Definition
end Statechart
