import Statechart.Proofs.Machine.Parallel
import Statechart.Proofs.Machine.Regularity
import Statechart.Proofs.Machine.Rounds

/-!
# Observers do not interfere

Observers that break off, or that are removed without having been seen, make no difference to
their machine and to each other. Its guards, actions, entries and exits are called in the same
order, it publishes the same snapshots, every call is answered the same, and every observer that
stays is given the same notifications in the same order.
-/

namespace Statechart

variable {κ τ ω σ β : Type}

/-! ## Activities -/

namespace Activity

/-- Whether a guard is asked, or a step is taken or fails. -/
def isCallout : Activity κ τ → Bool
  | .asked .. | .completed _ | .failed .. | .startFailed .. | .stopFailed .. => true
  | _ => false

/-- Who looks at what two machines have in common sees the same of both. -/
theorem filterMap_common
    {number? : Nat → Option Nat}
    {look commonLook : Activity κ τ → Option β}
    (looks : ∀ activity, (common? number? activity).bind commonLook = look activity)
    (activities : List (Activity κ τ)) :
    (activities.filterMap (common? number?)).filterMap commonLook =
      activities.filterMap look := by
  rw [List.filterMap_filterMap]
  exact List.filterMap_congr fun activity _ => looks activity

theorem common?_bind_callout (number? : Nat → Option Nat) (activity : Activity κ τ) :
    (common? number? activity).bind (Option.guard isCallout) =
      Option.guard isCallout activity := by
  cases activity with
  | notified observer notification =>
      rw [common?]
      cases number? observer <;> rfl
  | _ => rfl

theorem common?_bind_published (number? : Nat → Option Nat) (activity : Activity κ τ) :
    (common? number? activity).bind published? = activity.published? := by
  cases activity with
  | notified observer notification =>
      rw [common?]
      cases number? observer <;> rfl
  | _ => rfl

/-- What an observer is told can be read off its common number. -/
theorem common?_bind_notification
    {number? : Nat → Option Nat}
    {observer common : Nat}
    (known : ∀ other, number? other = some common ↔ other = observer)
    (activity : Activity κ τ) :
    (common? number? activity).bind (notification? common) =
      activity.deed?.bind (notification? observer) := by
  cases activity with
  | notified other notification =>
      have isDeed : (notified other notification : Activity κ τ).deed? =
          some (.notified other notification) := rfl
      rw [common?, isDeed]
      by_cases same : other = observer
      · subst same
        rw [(known other).mpr rfl]
        simp [notification?]
      · cases numbered : number? other with
        | none => simp [notification?, same]
        | some found =>
            have isOther : found ≠ common :=
              fun equal => same ((known other).mp (equal ▸ numbered))
            simp [notification?, same, isOther]
  | _ => rfl

end Activity

/-! ## Numbers of observers -/

namespace ObserverChange

variable {changes : List (ObserverChange κ τ ω)}

/-- The numbers of the observers that stay are different. -/
theorem nodup_stayingFrom (number : Nat) (changes : List (ObserverChange κ τ ω)) :
    (stayingFrom number changes).Nodup := by
  induction changes generalizing number with
  | nil => exact List.nodup_nil
  | cons change changes inductionHypothesis =>
      rw [stayingFrom]
      split
      · refine List.nodup_cons.mpr ⟨fun member => ?_, inductionHypothesis _⟩
        exact absurd (le_of_mem_stayingFrom member) (Nat.not_succ_le_self number)
      · exact inductionHypothesis _

variable {seen : ω → σ} {position number : Nat}

/-- An observer that stays is known by the number that it has had. -/
theorem number?_eq_some_iff
    (stays : (staying changes)[position]? = some number)
    (other : Nat) :
    (comparison seen changes).number? other = some number ↔ other = number := by
  have member : number ∈ staying changes := List.mem_of_getElem? stays
  constructor
  · intro known
    by_cases isStaying : other ∈ staying changes
    · simpa [comparison, isStaying] using known
    · simp [comparison, isStaying] at known
  · rintro rfl
    exact if_pos member

/-- It is known by that number on the other side as well. -/
theorem otherNumber?_eq_some_iff
    (stays : (staying changes)[position]? = some number)
    (other : Nat) :
    (comparison seen changes).otherNumber? other = some number ↔ other = position := by
  constructor
  · intro known
    obtain ⟨inRange, _⟩ := List.getElem?_eq_some_iff.mp known
    exact (List.getElem?_inj inRange (nodup_stayingFrom 0 changes)).mp (known.trans stays.symm)
  · rintro rfl
    exact stays

end ObserverChange

/-! ## Machines -/

/-- A machine has done the same as one whose observers have changed. -/
structure Machine.Resembles
    [DecidableEq κ]
    (changes : List (ObserverChange κ τ ω))
    (machine other : Machine κ τ ω) : Prop where
  phase_eq : machine.session.phase = other.session.phase
  queue_eq : machine.session.queue = other.session.queue
  /-- Both machines show the same of themselves. -/
  looksLike : machine.LooksLike other
  /-- Callers who wait have got the same answers. -/
  answers_eq : machine.answers = other.answers
  /-- Guards, actions, entries and exits have been called in the same order, with the same
  results. -/
  callouts_eq : machine.session.activities.filter Activity.isCallout =
    other.session.activities.filter Activity.isCallout
  /-- The same snapshots have been published. -/
  snapshots_eq : machine.session.activities.filterMap Activity.published? =
    other.session.activities.filterMap Activity.published?
  /-- The observers that stay have been told the same. -/
  received_eq {position number : Nat} :
    (ObserverChange.staying changes)[position]? = some number →
      received number machine.session.deeds = received position other.session.deeds
  /-- All this has happened in the same order. -/
  common_eq : machine.session.activities.filterMap
      (Activity.common? fun number =>
        if number ∈ ObserverChange.staying changes then some number else none) =
    other.session.activities.filterMap
      (Activity.common? fun number => (ObserverChange.staying changes)[number]?)

section Machines

variable
  [DecidableEq κ]
  [StateKey κ]
  [DecidableEq τ]
  [Inspect τ]
  {seen : ω → σ}
  {changes : List (ObserverChange κ τ ω)}

namespace Machine

variable {machine other : Machine κ τ ω}

/-- What two machines have in common is what both have done. -/
theorem Matches.resembles
    (matching : machine.Matches (ObserverChange.comparison seen changes) other) :
    machine.Resembles changes other := by
  -- Everything else is read off what the two journals have in common.
  have common_eq := congrArg List.reverse matching.session.common_eq
  simp only [Session.common, ← List.filterMap_reverse] at common_eq
  have looks_eq
      {β : Type}
      {look otherLook commonLook : Activity κ τ → Option β}
      (looks : ∀ activity, (Activity.common?
        (ObserverChange.comparison seen changes).number? activity).bind commonLook =
          look activity)
      (otherLooks : ∀ activity, (Activity.common?
        (ObserverChange.comparison seen changes).otherNumber? activity).bind commonLook =
          otherLook activity) :
      machine.session.activities.filterMap look =
        other.session.activities.filterMap otherLook := by
    rw [← Activity.filterMap_common looks, ← Activity.filterMap_common otherLooks,
      Session.activities, Session.activities, common_eq]
  exact {
    phase_eq := matching.session.phase_eq
    queue_eq := matching.session.queue_eq
    looksLike := matching.looksLike
    answers_eq := matching.answers_eq
    callouts_eq := by
      rw [← List.filterMap_eq_filter]
      exact looks_eq (Activity.common?_bind_callout _) (Activity.common?_bind_callout _)
    snapshots_eq :=
      looks_eq (Activity.common?_bind_published _) (Activity.common?_bind_published _)
    received_eq := by
      intro position number stays
      rw [received, received, Session.deeds, Session.deeds, List.filterMap_filterMap,
        List.filterMap_filterMap]
      exact looks_eq
        (Activity.common?_bind_notification (ObserverChange.number?_eq_some_iff stays))
        (Activity.common?_bind_notification (ObserverChange.otherNumber?_eq_some_iff stays))
    common_eq := common_eq }

end Machine

/-! ## Lives -/

namespace Life

variable {definition otherDefinition : Definition κ τ ω}

/-- While its worker has something in hand the client of the machine changes its state in
callbacks only. -/
def IsCalm (life : Life definition) : Prop :=
  life.created.IsCalm life.moves

/-- Two lives are the same but for what observers do, and but for the number of requests that
the workers need. -/
structure Resembles
    (changes : List (ObserverChange κ τ ω))
    (life : Life definition)
    (other : Life otherDefinition) : Prop where
  clock_eq : life.clock = other.clock
  world_eq : life.world = other.world
  /-- The same happens to both machines. -/
  calls_eq : life.moves.filter Move.isCall = other.moves.filter Move.isCall
  /-- Callers are answered the same. -/
  replies_eq : (life.created.replies life.moves).reduceOption =
    (other.created.replies other.moves).reduceOption
  /-- At the end both machines have done the same. -/
  resembles : life.scene.machine.Resembles changes other.scene.machine
  /-- Either both workers have something in hand or none of them has. -/
  idle_iff : life.scene.hand = none ↔ other.scene.hand = none

/-- In the life of a machine whose observers can change without harm, the same can happen if they
change. -/
theorem exists_resembles
    (definitions : definition.Matches (ObserverChange.comparison seen changes) otherDefinition)
    (life : Life definition)
    (isCalm : life.IsCalm) :
    ∃ other : Life otherDefinition, other.IsCalm ∧ life.Resembles changes other := by
  have created : life.created.Matches (ObserverChange.comparison seen changes)
      (Machine.new otherDefinition life.clock life.world).scene :=
    ⟨Machine.matches_new definitions life.clock life.world, .idle, rfl⟩
  obtain ⟨moves, calm, parallel⟩ := created.exists_parallel isCalm
  exact ⟨⟨life.clock, life.world, moves⟩, calm, {
    clock_eq := rfl
    world_eq := rfl
    calls_eq := parallel.calls_eq
    replies_eq := parallel.replies_eq
    resembles := parallel.isMatch.machine.resembles
    idle_iff := parallel.isMatch.hand_eq_none_iff }⟩

/-- What happens in the life of a machine whose observers have changed without harm could have
happened if they had not. -/
theorem exists_resembled
    (definitions : definition.Matches (ObserverChange.comparison seen changes) otherDefinition)
    (other : Life otherDefinition)
    (isCalm : other.IsCalm) :
    ∃ life : Life definition, life.IsCalm ∧ life.Resembles changes other := by
  have created : other.created.Matches (ObserverChange.comparison seen changes).swap
      (Machine.new definition other.clock other.world).scene :=
    ⟨(Machine.matches_new definitions other.clock other.world).swap, .idle, rfl⟩
  obtain ⟨moves, calm, parallel⟩ := created.exists_parallel isCalm
  -- The other machine has been followed, so its scene comes first.
  have scenes := parallel.isMatch.swap
  exact ⟨⟨other.clock, other.world, moves⟩, calm, {
    clock_eq := rfl
    world_eq := rfl
    calls_eq := parallel.calls_eq.symm
    replies_eq := parallel.replies_eq.symm
    resembles := scenes.machine.resembles
    idle_iff := scenes.hand_eq_none_iff }⟩

end Life

/-! ## Indifference -/

/-- Whatever becomes of its observers makes no difference to a machine, and none to the observers
that stay. -/
structure Definition.IsIndifferent
    (changes : List (ObserverChange κ τ ω))
    (definition : Definition κ τ ω) : Prop where
  /-- If the workers of both machines are not interrupted, the same happens in the course of any
  operations. -/
  alone (clock : Timestamp) (world : ω) (operations : List (Operation κ τ ω)) :
    let machine := Machine.new definition clock world
    let other := Machine.new (definition.withChanges changes) clock world
    machine.replies operations = other.replies operations ∧
      (machine.perform operations).Resembles changes (other.perform operations) ∧
      (machine.perform operations).AnswersLike (other.perform operations)
  /-- If they may be interrupted at any request, what happens to the machine can happen if its
  observers change. -/
  changed (life : Life definition) : life.IsCalm →
    ∃ other : Life (definition.withChanges changes),
      other.IsCalm ∧ life.Resembles changes other
  /-- Nothing else can happen then. -/
  unchanged (other : Life (definition.withChanges changes)) : other.IsCalm →
    ∃ life : Life definition, life.IsCalm ∧ life.Resembles changes other

/-- A machine is indifferent to changes that its definition bears. -/
theorem Definition.isIndifferent_of_bears
    {definition : Definition κ τ ω}
    (bears : definition.Bears seen changes) : definition.IsIndifferent changes where
  alone clock world operations := by
    have created := Machine.matches_new bears.isMatch clock world
    obtain ⟨replies_eq, performed⟩ := created.perform operations
    exact ⟨replies_eq, performed.resembles, performed.answersLike⟩
  changed := Life.exists_resembles bears.isMatch
  unchanged := Life.exists_resembled bears.isMatch

end Machines

/-- Some of the calls of the observers of a definition are made to break off. -/
def Definition.breakingOff
    (definition : Definition κ τ ω)
    (breaks? : Nat → Notification κ τ → ω → Option Panic) : List (ObserverChange κ τ ω) :=
  definition.observers.zipIdx.map fun (observer, number) =>
    ⟨observer, some (observer.breakingOff (breaks? number))⟩

/-- Where everything is seen, every definition bears it if its observers break off. -/
theorem Definition.bears_breakingOff
    [DecidableEq κ]
    (definition : Definition κ τ ω)
    (breaks? : Nat → Notification κ τ → ω → Option Panic) :
    definition.Bears id (definition.breakingOff breaks?) where
  observers_eq := by
    rw [breakingOff, List.map_map]
    exact (List.zipIdx_map_fst 0 definition.observers).symm
  goesBy := definition.goesBy_id
  isHarmless := by
    intro change member
    obtain ⟨numbered, _, rfl⟩ := List.mem_map.mp member
    exact ObserverChange.isHarmless_breakingOff (fun _ => Statechart.goesBy_id _) _

namespace Definition

variable [DecidableEq κ] [StateKey κ] [DecidableEq τ] [Inspect τ]

/-- Observers that break off, wherever they do, make no difference to their machine and to each
other. Neither does it make a difference that observers are removed, or replaced by others, which
do not queue events and whose effects on the state of the client are not seen by the other
callbacks. All observers are told of one thing after the other, each of them once and in
order. -/
theorem isIndifferent :
    (∀ (definition : Definition κ τ ω) (breaks? : Nat → Notification κ τ → ω → Option Panic),
      definition.IsIndifferent (definition.breakingOff breaks?)) ∧
    (∀ {σ : Type} {seen : ω → σ} {changes : List (ObserverChange κ τ ω)}
      {definition : Definition κ τ ω},
      definition.Bears seen changes → definition.IsIndifferent changes) ∧
    ∀ {definition : Definition κ τ ω} (life : Life definition), life.TellsInRounds :=
  ⟨fun definition breaks? => isIndifferent_of_bears (definition.bears_breakingOff breaks?),
    isIndifferent_of_bears, Life.tellsInRounds⟩

end Definition

/-! ## An example -/

namespace Definition

open Run (midnight)

/-- An observer that counts what it is told, behind the back of guards and actions. -/
def tally : Observer String String (Bool × Nat) := fun _ world =>
  .look fun _ => .done (.returned (), (world.1, world.2 + 1))

/-- A machine that can cross while its client allows it, which it does once. Two of its three
observers count. -/
def tallied : Definition String String (Bool × Nat) where
  graph := (Blueprint.twoRegions Unit).graph
  table :=
    let guarded : Transition String String (Bool × Nat) :=
      { (.external "red" "cross" "loud" : Transition String String (Bool × Nat)) with
        guard := some (.ignoring fun world => .done (.returned world.1, world))
        actions := [.ignoring fun world => .done (.returned (.ok ()), (false, world.2))] }
    ⟨[⟨guarded, 1, some 4, .external⟩]⟩
  hooks := .empty
  observers := [tally, silentObserver, tally]
  settings := .standard

/-- The first observer is removed and the second one always breaks off. -/
def talliedChanges : List (ObserverChange String String (Bool × Nat)) :=
  [⟨tally, none⟩,
    ⟨silentObserver, some (silentObserver.breakingOff fun _ _ => some .unknown)⟩,
    ⟨tally, some tally⟩]

theorem bears_tallied : tallied.Bears Prod.fst talliedChanges where
  observers_eq := rfl
  goesBy := {
    guard := by
      intro entry guard payload member isGuard
      obtain rfl := List.mem_singleton.mp member
      cases isGuard
      intro world otherWorld same
      exact .done ⟨congrArg Except.ok same, same⟩
    action := by
      intro entry action payload member isAction
      obtain rfl := List.mem_singleton.mp member
      obtain rfl := List.mem_singleton.mp isAction
      intro world otherWorld same
      exact .done ⟨rfl, rfl⟩
    entry := by
      intro state action isEntry
      obtain ⟨_, _, nothing⟩ := Option.bind_eq_some_iff.mp isEntry
      contradiction
    exit := by
      intro state action isExit
      obtain ⟨_, _, nothing⟩ := Option.bind_eq_some_iff.mp isExit
      contradiction }
  isHarmless := by
    have tallyGoesBy (notification : Notification String String) :
        Statechart.GoesBy Prod.fst (tally notification) :=
      fun _ _ same => .look fun _ => .done ⟨rfl, same⟩
    have silentGoesBy (notification : Notification String String) :
        Statechart.GoesBy Prod.fst
          (silentObserver notification : Callback String String (Bool × Nat) (Outcome Unit)) :=
      fun _ _ same => .done ⟨rfl, same⟩
    intro change member
    simp only [talliedChanges, List.mem_cons, List.not_mem_nil, or_false] at member
    rcases member with rfl | rfl | rfl
    · exact .removed fun _ _ _ => rfl
    · exact ObserverChange.isHarmless_breakingOff silentGoesBy _
    · exact ObserverChange.isHarmless_kept tallyGoesBy

/-- Two events are sent to a machine, which is then stopped. -/
def crossings : List (Operation String String (Bool × Nat)) :=
  [.start true, .fire (.new .nil "cross"), .fire (.new .nil "cross"), .advance, .advance,
    .requestStop, .advance]

/-- The observer that stays as it is hears of a completed event and of one that is declined,
whether or not the others are there. Only the client can tell that nobody else counts. -/
theorem isIndifferent_tallied :
    let machine := (Machine.new tallied midnight (true, 0)).perform crossings
    let other := (Machine.new (tallied.withChanges talliedChanges) midnight (true, 0)).perform
      crossings
    (machine.session.world = (false, 8) ∧ other.session.world = (false, 4)) ∧
      (received 2 machine.session.deeds).map Notification.kind =
        ["begin", "completed", "begin", "declined"] ∧
      (received 1 other.session.deeds).map Notification.kind =
        ["begin", "completed", "begin", "declined"] ∧
      tallied.Bears Prod.fst talliedChanges ∧ tallied.IsIndifferent talliedChanges :=
  ⟨⟨by cbv, by cbv⟩, by cbv, by cbv, bears_tallied, isIndifferent.2.1 bears_tallied⟩

end Definition
end Statechart
