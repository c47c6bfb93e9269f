import Statechart.Proofs.Machine.Moments
import Statechart.Proofs.Machine.Order
import Statechart.Proofs.Machine.Sights

/-!
# What can be observed

Whoever looks at a machine, and whenever, sees a whole snapshot that belongs to one moment.
While an event is decided and its steps are taken, that is what was published after the event
before. While the event is reported it is what the event has come to. This holds of callers
and of the callbacks themselves.
-/

namespace Statechart

variable {κ τ ω : Type} [DecidableEq κ] [StateKey κ] [DecidableEq τ] [Inspect τ]

/-! ## One snapshot -/

section Shows

omit [DecidableEq κ] [StateKey κ] [DecidableEq τ] [Inspect τ]

/-- All that can be read of a machine is read from one snapshot. -/
structure Machine.Shows (machine : Machine κ τ ω) (snapshot : Snapshot κ) : Prop where
  snapshot_eq : machine.snapshot = snapshot
  currentStates_eq : machine.currentStates = snapshot.active
  /-- A checkpoint, under whatever identity, has the position of the snapshot. -/
  checkpoint_eq (id : Uuid) :
    (⟨(machine.checkpoint id).active, (machine.checkpoint id).history,
      (machine.checkpoint id).metadata⟩ : Snapshot κ) = snapshot
  /-- What a callback can see is the snapshot. -/
  view_eq : machine.session.view.snapshot = snapshot

theorem Machine.shows_of_eq
    {machine : Machine κ τ ω}
    {snapshot : Snapshot κ}
    (snapshot_eq : machine.snapshot = snapshot) :
    machine.Shows snapshot :=
  ⟨snapshot_eq, congrArg Snapshot.active snapshot_eq, fun _ => snapshot_eq, snapshot_eq⟩

end Shows

/-! ## What has been published -/

omit [DecidableEq κ] [StateKey κ] [DecidableEq τ] [Inspect τ] in
/-- Plain work that ends in publishing a worker publishes once. -/
theorem Work.IsPlain.filterMap_published
    {definition : Definition κ τ ω}
    {work : Work κ τ ω (Worker κ)}
    (isPlain : work.IsPlain)
    {deeds : List (Activity κ τ)}
    {after : Worker κ}
    (performs : (thenPublish definition work).Performs deeds after) :
    deeds.filterMap Activity.published? = [after.snapshot definition] := by
  obtain ⟨earlier, rfl, worked⟩ := performs_thenPublish performs
  rw [List.filterMap_append, List.filterMap_eq_nil_iff.mpr (isPlain.unpublished worked)]
  rfl

namespace Handles

variable
  {definition : Definition κ τ ω}
  {first worker : Worker κ}
  {accounts : List (Account κ τ ω)}

/-- Every event is published once. -/
theorem filterMap_published (handles : Handles definition first accounts worker) :
    (accounts.flatMap (Account.chapter definition)).filterMap Activity.published? =
      accounts.map fun account => (account.after definition).snapshot definition := by
  induction handles with
  | nothing => rfl
  | event _ isRight _ _ inductionHypothesis =>
      rw [List.flatMap_append, List.filterMap_append, inductionHypothesis, List.map_append,
        List.flatMap_singleton, Account.chapter]
      exact congrArg (_ ++ ·) isRight.filterMap_published

end Handles

/-! ## Moments of a course -/

section Moments

variable
  {definition : Definition κ τ ω}
  {opening : Work κ τ ω (Worker κ)}
  {blank shown : Snapshot κ}
  {remaining : Option (Worker κ)}
  {hand : Option (Task τ × Work κ τ ω (Worker κ))}
  {chronicle : Chronicle κ τ ω}
  {worker : Worker κ}

namespace Moment

/-- A worker that has opened was published once when it had opened, and once for each event
before its present task. It is what the last of the events has come to. -/
theorem exists_first
    (isPlain : opening.IsPlain)
    (moment : Moment definition opening blank (some worker) hand chronicle shown) :
    ∃ first : Worker κ,
      chronicle.opened.filterMap Activity.published? = [first.snapshot definition] ∧
        (chronicle.accounts.flatMap (Account.chapter definition)).filterMap
            Activity.published? =
          chronicle.accounts.map (fun account =>
            (account.after definition).snapshot definition) ∧
        worker = chronicle.accounts.getLast?.elim first (Account.after definition) := by
  obtain ⟨first, opens, handles⟩ : ∃ first,
      (Work.thenPublish definition opening).Performs chronicle.opened first ∧
        Handles definition first chronicle.accounts worker := by
    cases moment with
    | idle opens handles => exact ⟨_, opens, handles⟩
    | event opens handles _ => exact ⟨_, opens, handles⟩
    | leaving opens handles _ => exact ⟨_, opens, handles⟩
    | left opens handles _ _ => exact ⟨_, opens, handles⟩
  exact ⟨first, isPlain.filterMap_published opens, handles.filterMap_published,
    handles.eq_after⟩

/-- A worker that opens and has not been published shows nothing yet. -/
theorem eq_blank
    {work : Work κ τ ω (Worker κ)}
    (moment :
      Moment definition opening blank remaining (some (.opening, work)) chronicle shown)
    (unfinished : ∀ worker, work ≠ .done worker) :
    shown = blank := by
  cases moment with
  | opening _ => rfl
  | opened _ => exact absurd rfl (unfinished _)

/-- A worker that waits for its next task shows what it is. -/
theorem eq_snapshot_of_idle
    (moment : Moment definition opening blank (some worker) none chronicle shown) :
    shown = worker.snapshot definition := by
  cases moment with
  | idle _ _ => rfl

/-- A worker with an event in hand is amid the event. -/
theorem exists_amid
    {event : Event τ}
    {work : Work κ τ ω (Worker κ)}
    (moment :
      Moment definition opening blank (some worker) (some (.event event, work)) chronicle
        shown) :
    ∃ opened accounts deeds, chronicle = ⟨opened, accounts, .began event :: deeds⟩ ∧
      Work.Amid definition worker event deeds work shown := by
  cases moment with
  | event _ _ amid => exact ⟨_, _, _, rfl, amid⟩

/-- A worker that leaves everything and has not been published shows what it was before. -/
theorem eq_snapshot_of_leaving
    {rest : Work κ τ ω (Worker κ)}
    (moment :
      Moment definition opening blank (some worker)
        (some (.closing, (Work.thenPublish definition rest).bind Work.noteEnd)) chronicle
        shown) :
    shown = worker.snapshot definition := by
  -- Once the worker has been published the remaining work does not publish any more.
  have unfinished (rest : Work κ τ ω (Worker κ)) (left : Worker κ) :
      (Work.thenPublish definition rest).bind Work.noteEnd ≠ .done left := by
    cases rest <;> rintro ⟨⟩
  generalize work_eq : (Work.thenPublish definition rest).bind Work.noteEnd = work at moment
  cases moment with
  | leaving _ _ _ => rfl
  | @left _ _ _ _ _ left _ _ _ _ _ ends =>
      cases ends with
      | refl =>
          cases rest with
          | note _ _ next => exact absurd (Work.note.inj work_eq).2 (unfinished next left)
          | _ => cases work_eq
      | note ends =>
          cases ends
          exact absurd work_eq (unfinished rest left)

end Moment

/-- A scene shows what belongs to a moment in a life. -/
structure Scene.IsAt
    (definition : Definition κ τ ω)
    (opening : Work κ τ ω (Worker κ))
    (blank : Snapshot κ)
    (scene : Scene κ τ ω)
    (chronicle : Chronicle κ τ ω)
    (shown : Snapshot κ) : Prop where
  /-- The journal lists the deeds in the life so far. -/
  deeds_eq : scene.machine.session.deeds = chronicle.deeds definition
  /-- The part of the task in which the worker is decides what is shown. -/
  moment : Moment definition opening blank scene.machine.worker scene.hand chronicle shown
  /-- Whoever reads anything of the machine reads it from this snapshot. -/
  shows : scene.machine.Shows shown
  /-- Before its present task the worker was published once when it had opened and once for
  each event, and it is what the last of them has come to. -/
  previous {worker : Worker κ} : scene.machine.worker = some worker → ∃ first : Worker κ,
      chronicle.opened.filterMap Activity.published? = [first.snapshot definition] ∧
        (chronicle.accounts.flatMap (Account.chapter definition)).filterMap
            Activity.published? =
          chronicle.accounts.map (fun account =>
            (account.after definition).snapshot definition) ∧
        worker = chronicle.accounts.getLast?.elim first (Account.after definition)

/-- A scene that is what a chronicle says is at some moment. -/
theorem Scene.Unfolds.exists_isAt
    {base : UInt64}
    {scene : Scene κ τ ω}
    (unfolds :
      scene.Unfolds definition (Work.thenPublish definition opening) base blank chronicle)
    (isPlain : opening.IsPlain) :
    ∃ shown, scene.IsAt definition opening blank chronicle shown := by
  obtain ⟨shown, moment⟩ := unfolds.stage.exists_moment blank
  refine ⟨shown,
    { deeds_eq := unfolds.deeds_eq
      moment
      shows := Machine.shows_of_eq ?_
      previous := fun isWorker => Moment.exists_first isPlain (isWorker ▸ moment) }⟩
  rw [Machine.snapshot, unfolds.shown_eq, unfolds.deeds_eq, moment.shown_eq isPlain]

end Moments

namespace Course

variable {definition : Definition κ τ ω}

/-- What can be observed at the end of a course. As every beginning of a course is a course,
this is what can be observed whenever someone looks. -/
structure ShowsMoments (course : Course definition) : Prop where
  /-- Before the machine begins it shows no active state, no transition and no event. -/
  blank_eq : course.blank.active = [] ∧ course.blank.history.records = [] ∧
    course.blank.metadata.count = 0
  /-- The machine shows what belongs to a moment in its life. -/
  moment : ∃ opening chronicle shown, Work.Begins definition course.beginning opening ∧
    course.scene.IsAt definition opening course.blank chronicle shown
  /-- While the first configuration is entered or restored, everything is blank. -/
  opening {work : Work κ τ ω (Worker κ)} :
    course.scene.hand = some (.opening, work) → (∀ worker, work ≠ .done worker) →
      course.scene.machine.Shows course.blank
  /-- From one event to the next the worker is shown as the first of them has left it. -/
  idle {worker : Worker κ} :
    course.scene.machine.worker = some worker → course.scene.hand = none →
      course.scene.machine.Shows (worker.snapshot definition)
  /-- Whichever way the worker has come to a part of its work at an event, what belongs to the
  part is shown. -/
  event {worker : Worker κ} {event : Event τ} {work : Work κ τ ω (Worker κ)}
      {deeds : List (Activity κ τ)} {shown : Snapshot κ} :
    course.scene.machine.worker = some worker →
      course.scene.hand = some (.event event, work) →
      Work.Amid definition worker event deeds work shown → course.scene.machine.Shows shown
  /-- What is shown while an event is in hand is the worker as it was before the event, until
  the event is published, and then the worker that the event has come to. -/
  account {worker : Worker κ} {event : Event τ} {work : Work κ τ ω (Worker κ)} :
    course.scene.machine.worker = some worker →
      course.scene.hand = some (.event event, work) →
      ∃ (account : Account κ τ ω) (earlier deeds : List (Activity κ τ)),
        account.IsRight definition ∧ account.before = worker ∧ account.event = event ∧
        course.scene.machine.session.deeds = earlier ++ .began event :: deeds ∧
        deeds <+: account.deeds definition ∧
        ((∀ deed ∈ deeds, deed.published? = none) ∧
            course.scene.machine.Shows (worker.snapshot definition) ∨
          (∃ deed ∈ deeds, deed.published? ≠ none) ∧
            course.scene.machine.Shows ((account.after definition).snapshot definition))
  /-- While everything is left, the worker is shown as it was before. -/
  leaving {worker : Worker κ} {rest : Work κ τ ω (Worker κ)} :
    course.scene.machine.worker = some worker →
      course.scene.hand =
        some (.closing, (Work.thenPublish definition rest).bind Work.noteEnd) →
      course.scene.machine.Shows (worker.snapshot definition)
  /-- A callback that looks is given what is shown. -/
  looks {α : Type} {task : Task τ} {next : View κ → Program κ τ α}
      {continuation : α → Work κ τ ω (Worker κ)} :
    course.scene.hand =
        some (task, (Work.ofProgram (.look next)).bind continuation) →
      (course.scene.apply (.operation .advance)).hand =
        some (task,
          .note _ (.shown course.scene.machine.session.view)
            ((Work.ofProgram (next course.scene.machine.session.view)).bind continuation))
  /-- What the journal lists as seen by callbacks had been published last by then. -/
  seen {earlier later : List (Activity κ τ)} {view : View κ} :
    course.scene.machine.session.activities = earlier ++ .shown view :: later →
      view.snapshot = Session.shownAfter course.blank earlier

/-- Whatever happens in the course of time, whoever looks at a machine sees what belongs to the
moment. What happens to a machine whose worker is not interrupted is one of the courses. -/
theorem showsMoments
    {draft : MachineDraft κ τ ω}
    (built : draft.build = .ok definition) :
    (∀ run : Run definition, ∃ course : Course definition,
      course.beginning = run.beginning ∧ course.scene = run.machine.scene) ∧
      ∀ course : Course definition, course.ShowsMoments := by
  have forest := (Definition.isWellFormed_of_build built).forest
  have fits := Definition.fits_of_build built
  refine ⟨fun run => run.exists_course, fun course => ?_⟩
  obtain ⟨opening, chronicle, begins, unfolds⟩ := course.exists_unfolds_of_begins built
  obtain ⟨shown, isAt⟩ := unfolds.exists_isAt begins.isPlain
  have moment := isAt.moment
  exact {
    blank_eq := ⟨rfl, rfl, rfl⟩
    moment := ⟨opening, chronicle, shown, begins, isAt⟩
    opening := by
      intro work opens unfinished
      rw [opens] at moment
      exact moment.eq_blank unfinished ▸ isAt.shows
    idle := by
      intro worker isWorker waits
      rw [isWorker, waits] at moment
      exact moment.eq_snapshot_of_idle ▸ isAt.shows
    event := by
      intro worker event work deeds other isWorker busy amid
      rw [isWorker, busy] at moment
      obtain ⟨_, _, _, _, isAmid⟩ := moment.exists_amid
      exact isAmid.shown_unique course.scene.machine.session forest fits amid ▸ isAt.shows
    account := by
      intro worker event work isWorker busy
      rw [isWorker, busy] at moment
      obtain ⟨opened, accounts, deeds, rfl, isAmid⟩ := moment.exists_amid
      obtain ⟨account, isRight, before_eq, event_eq, onTheWay, before | after⟩ :=
        isAmid.exists_account course.scene.machine.session forest fits
      · exact ⟨account, _, deeds, isRight, before_eq, event_eq, isAt.deeds_eq, onTheWay,
          .inl ⟨before.1, before.2 ▸ isAt.shows⟩⟩
      · exact ⟨account, _, deeds, isRight, before_eq, event_eq, isAt.deeds_eq, onTheWay,
          .inr ⟨after.1, after.2 ▸ isAt.shows⟩⟩
    leaving := by
      intro worker rest isWorker leaves
      rw [isWorker, leaves] at moment
      exact moment.eq_snapshot_of_leaving ▸ isAt.shows
    looks := by
      intro α task next continuation busy
      rw [Scene.apply, Scene.advance, busy]
      rfl
    seen := (course.attests built).listed _ _ _ }

end Course

/-! ## An example -/

namespace Course

open Run (crossing crossingDraft midnight)

/-- A callback that looks at its machine and then succeeds. -/
def glance {α : Type} (answer : α) : Callback String String Unit (Outcome α) :=
  fun world => .look fun _ => .done (.returned answer, world)

/-- A machine whose callbacks all look at it. -/
def watchedDraft : MachineDraft String String Unit :=
  let watched : Transition String String Unit :=
    { (Transition.external "red" "cross" "loud" : Transition String String Unit) with
      guard := some (.ignoring (glance true))
      actions := [.ignoring (glance (.ok ()))] }
  let look : StateAction String String Unit := ⟨glance (.ok ())⟩
  { crossingDraft [] with
    blueprint := (crossingDraft []).blueprint
      |>.onEntry "mute" look
      |>.onExit "mute" look
      |>.onEntry "loud" look
      |>.onExit "loud" look
    transitions := [watched]
    observers := [fun _ => glance ()] }

/-- What the draft describes. -/
def watched : Definition String String Unit :=
  { crossing [] with
    table := ⟨watchedDraft.transitions.filterMap fun transition =>
      (Table.entryOf (crossing []).graph transition).toOption⟩
    hooks := watchedDraft.blueprint.hooks
    observers := watchedDraft.observers }

/-- A course in which one event is completed and one is declined before the machine is
stopped. -/
def watching : Course watched where
  clock := midnight
  world := ()
  beginning := .start
  first :=
    let machine := Machine.new watched midnight ()
    Scene.launched machine 0 (Work.enterInitial watched machine.freshWorker)
  accepted := rfl
  moves :=
    .operation (.fire (.new .nil "cross")) :: .operation (.fire (.new .nil "wait")) ::
      requests 60 ++ .operation .requestStop :: .tell :: requests 20

/-- The entry action at the start sees nothing. The observer, the guard and the steps see what
was there before the first event, and the observer sees what the event has come to. Likewise
for the second event. The exit action at the end sees what was there before. -/
theorem showsMoments_watching :
    watchedDraft.build = .ok watched ∧
      (watching.scene.machine.session.activities.filterMap Activity.seen?).map (fun view =>
          (view.snapshot.active, view.snapshot.metadata.count)) =
        [([], 0), (["red", "mute"], 0), (["red", "mute"], 0), (["red", "mute"], 0),
          (["red", "mute"], 0), (["red", "mute"], 0), (["red", "loud"], 1),
          (["red", "loud"], 1), (["red", "loud"], 2), (["red", "loud"], 2)] ∧
      watching.scene.machine.snapshot.active = [] ∧
      watching.ShowsMoments := by
  have built : watchedDraft.build = .ok watched := by cbv
  exact ⟨built, by cbv, by cbv, (showsMoments built).2 watching⟩

end Course
end Statechart
