import Statechart.Proofs.Machine.Chronicle

/-!
# How a course unfolds

A machine, its queue, its journal and its worker agree with one chronicle at every moment of
a course. What callers and callbacks do takes the chronicle no further, and each request of
the worker is its next deed. The events that a worker begins are the first ones that its
machine has accepted. The others wait in the queue, or have been thrown away after the
worker was told to stop.
-/

namespace Statechart

variable {κ τ ω : Type} [DecidableEq κ] [StateKey κ] [DecidableEq τ] [Inspect τ]

/-- A scene is what a chronicle says. The machine showed a blank snapshot before the worker
began with its opening, and the accepted events are numbered from a base on. -/
structure Scene.Unfolds
    (definition : Definition κ τ ω)
    (opening : Work κ τ ω (Worker κ))
    (base : UInt64)
    (blank : Snapshot κ)
    (scene : Scene κ τ ω)
    (chronicle : Chronicle κ τ ω) : Prop where
  /-- The definition does not change. -/
  definition_eq : scene.machine.definition = definition
  /-- The machine cannot begin again. -/
  begun : scene.machine.session.phase ≠ .created
  /-- The worker has come as far as the chronicle. -/
  stage : Stage definition opening scene.told scene.machine.worker scene.hand chronicle
  /-- The journal lists the deeds. -/
  deeds_eq : scene.machine.session.deeds = chronicle.deeds definition
  /-- What is shown was published last. -/
  shown_eq :
    scene.machine.session.published = Session.shownAfter blank scene.machine.session.deeds
  /-- The accepted events are numbered without gaps. -/
  numbered : scene.machine.session.IsNumbered base
  /-- The accepted events were begun or thrown away at the end, or they wait. -/
  held : ∃ discarded : List (Event τ),
    scene.machine.session.accepted = scene.machine.session.begun ++ discarded ++
        scene.machine.session.queue.events ∧
      (discarded ≠ [] → scene.told = true)
  /-- Only the worker of a stopped machine is told to stop. -/
  told_stopped : scene.told = true → scene.machine.session.phase = .stopped

namespace Scene
namespace Unfolds

variable
  {definition : Definition κ τ ω}
  {opening : Work κ τ ω (Worker κ)}
  {base : UInt64}
  {blank : Snapshot κ}
  {scene after : Scene κ τ ω}
  {chronicle later : Chronicle κ τ ω}

/-- Deeds that take the worker further unfold the chronicle. -/
theorem of_proceeds
    (unfolds : scene.Unfolds definition opening base blank chronicle)
    {deeds : List (Activity κ τ)}
    (proceeds : scene.machine.session.Proceeds deeds after.machine.session)
    (definition_eq : after.machine.definition = scene.machine.definition)
    (told_eq : after.told = scene.told)
    (stage : Stage definition opening scene.told after.machine.worker after.hand later)
    (deeds_eq : later.deeds definition = chronicle.deeds definition ++ deeds) :
    after.Unfolds definition opening base blank later where
  definition_eq := definition_eq.trans unfolds.definition_eq
  begun := proceeds.not_created unfolds.begun
  stage := told_eq ▸ stage
  deeds_eq := by rw [proceeds.deeds_eq, unfolds.deeds_eq, deeds_eq]
  shown_eq := by
    rw [proceeds.published_eq, unfolds.shown_eq, ← Session.shownAfter_append,
      proceeds.deeds_eq]
  numbered := unfolds.numbered.of_proceeds proceeds
  held := by
    obtain ⟨discarded, accepted_eq, only_told⟩ := unfolds.held
    obtain ⟨events, more, queued, _, _⟩ := proceeds.admitted
    refine ⟨discarded, ?_, told_eq ▸ only_told⟩
    rw [more, queued, accepted_eq, proceeds.begun_eq, List.append_assoc _ _ events]
  told_stopped := fun isTold => proceeds.stopped (unfolds.told_stopped (told_eq ▸ isTold))

end Unfolds
end Scene

/-! ## One move -/

/-- What callers do to a machine that has begun takes its worker no further. -/
theorem Machine.proceeds_apply
    {machine : Machine κ τ ω}
    (begun : machine.session.phase ≠ .created)
    {operation : Operation κ τ ω}
    (byCaller : operation ≠ .advance) :
    machine.session.Proceeds [] (machine.apply operation).session ∧
      (machine.apply operation).definition = machine.definition ∧
      (machine.apply operation).worker = machine.worker := by
  cases operation with
  | start hasRuntime =>
      rw [apply, start, launch_of_begun begun]
      exact ⟨.refl _, rfl, rfl⟩
  | startFrom checkpoint hasRuntime =>
      rw [apply, startFrom_of_begun begun]
      rcases machine.comparingName_cases checkpoint with same | noted
      · rw [same]
        exact ⟨.refl _, rfl, rfl⟩
      · rw [noted]
        exact ⟨machine.session.proceeds_note (.renamed _ _), rfl, rfl⟩
  | fire event => exact ⟨machine.session.proceeds_fire event, rfl, rfl⟩
  | settle =>
      rw [apply, settle]
      split
      · exact ⟨.refl _, rfl, rfl⟩
      · exact ⟨.refl _, rfl, rfl⟩
      · exact ⟨.of_eq rfl (Queue.events_enroll _ _) rfl rfl id id, rfl, rfl⟩
  | requestStop =>
      rw [apply, requestStop]
      split
      · exact ⟨.refl _, rfl, rfl⟩
      · exact ⟨.refl _, rfl, rfl⟩
      · exact ⟨.of_eq rfl rfl rfl rfl (fun _ => rfl) (fun _ => Phase.noConfusion), rfl, rfl⟩
  | advance => contradiction
  | deposit => exact ⟨.of_eq rfl (Queue.events_deposit _) rfl rfl id id, rfl, rfl⟩
  | change world => exact ⟨.of_eq rfl rfl rfl rfl id id, rfl, rfl⟩
  | pass clock => exact ⟨.of_eq rfl rfl rfl rfl id id, rfl, rfl⟩

omit [DecidableEq κ] [StateKey κ] [DecidableEq τ] [Inspect τ] in
/-- When the queue is emptied at the end only the journal changes, by no deed. -/
theorem Machine.close_keeps (machine : Machine κ τ ω) :
    machine.close.session.phase = machine.session.phase ∧
      machine.close.session.published = machine.session.published ∧
      machine.close.session.number = machine.session.number ∧
      machine.close.session.accepted = machine.session.accepted ∧
      machine.close.session.begun = machine.session.begun ∧
      machine.close.session.deeds = machine.session.deeds ∧
      machine.close.session.queue.events = [] := by
  unfold close
  extract_lets queue count emptied
  have noted_accepted : (emptied.note (.discarded count)).accepted = machine.session.accepted :=
    (emptied.accepted_note _).trans (List.append_nil _)
  have noted_begun : (emptied.note (.discarded count)).begun = machine.session.begun :=
    (emptied.begun_note _).trans (List.append_nil _)
  have noted_deeds : (emptied.note (.discarded count)).deeds = machine.session.deeds :=
    (emptied.deeds_note _).trans (List.append_nil _)
  simp only
  split
  · exact ⟨rfl, rfl, rfl, rfl, rfl, rfl, rfl⟩
  · exact ⟨rfl, rfl, rfl, noted_accepted, noted_begun, noted_deeds, rfl⟩

namespace Scene
namespace Unfolds

variable
  {definition : Definition κ τ ω}
  {opening : Work κ τ ω (Worker κ)}
  {base : UInt64}
  {blank : Snapshot κ}
  {scene : Scene κ τ ω}
  {chronicle : Chronicle κ τ ω}

/-- A worker that has been told to stop begins with its end. What has been accepted but not
begun is thrown away. -/
theorem of_close
    (unfolds : scene.Unfolds definition opening base blank chronicle)
    (isTold : scene.told = true)
    {hand : Option (Task τ × Work κ τ ω (Worker κ))}
    (stage : Stage definition opening scene.told scene.machine.worker hand chronicle) :
    (⟨scene.machine.close, hand, scene.told⟩ : Scene κ τ ω).Unfolds definition opening base blank
      chronicle := by
  obtain ⟨phase_eq, published_eq, number_eq, accepted_eq, begun_eq, deeds_eq, emptied⟩ :=
    scene.machine.close_keeps
  exact {
    definition_eq := unfolds.definition_eq
    begun := phase_eq ▸ unfolds.begun
    stage := stage
    deeds_eq := deeds_eq.trans unfolds.deeds_eq
    shown_eq := by
      rw [deeds_eq, ← unfolds.shown_eq]
      exact published_eq
    numbered := unfolds.numbered.of_eq number_eq accepted_eq
    held := by
      obtain ⟨discarded, held, _⟩ := unfolds.held
      refine ⟨discarded ++ scene.machine.session.queue.events, ?_, fun _ => isTold⟩
      rw [accepted_eq, begun_eq, emptied, List.append_nil, ← List.append_assoc, held]
    told_stopped := fun _ => phase_eq.trans (unfolds.told_stopped isTold) }

/-- A worker that has not been told to stop begins the oldest event in the queue. -/
theorem of_pop
    (unfolds : scene.Unfolds definition opening base blank chronicle)
    (goesOn : scene.told = false)
    {worker : Worker κ}
    (isWorker : scene.machine.worker = some worker)
    (idle : scene.hand = none)
    {event : Event τ}
    {queue : Queue τ}
    (popped : scene.machine.session.queue.pop? = some (.event event, queue)) :
    ∃ later, Unfolds definition opening base blank
      ⟨{ scene.machine with
          session := { scene.machine.session with queue }.note (.began event) },
        some (.event event, Work.process scene.machine.definition worker event), scene.told⟩
      later := by
  have stage := unfolds.stage
  rw [isWorker, idle] at stage
  obtain ⟨opened, first, accounts, rfl, opens, handles⟩ := stage.of_idle
  have events_eq : scene.machine.session.queue.events = event :: queue.events := by
    rw [Queue.events, Queue.items_of_pop?_eq_some popped]
    rfl
  let session : Session κ τ ω := { scene.machine.session with queue }
  have deeds_eq : (session.note (.began event)).deeds =
      scene.machine.session.deeds ++ [.began event] := session.deeds_note _
  have begun_eq : (session.note (.began event)).begun =
      scene.machine.session.begun ++ [event] := session.begun_note _
  have accepted_eq : (session.note (.began event)).accepted = scene.machine.session.accepted :=
    (session.accepted_note _).trans (List.append_nil _)
  refine ⟨⟨opened, accounts, [.began event]⟩, ?_⟩
  exact {
    definition_eq := unfolds.definition_eq
    begun := unfolds.begun
    stage := by
      simp only [isWorker, unfolds.definition_eq]
      exact .event opens handles (.refl _)
    deeds_eq := by
      rw [deeds_eq, unfolds.deeds_eq, Chronicle.deeds, List.append_nil]
      rfl
    shown_eq := by
      rw [deeds_eq, Session.shownAfter_append, ← unfolds.shown_eq]
      rfl
    numbered := unfolds.numbered.of_eq rfl accepted_eq
    held := by
      obtain ⟨discarded, held, only_told⟩ := unfolds.held
      obtain rfl : discarded = [] := by
        by_contra some
        simp [only_told some] at goesOn
      refine ⟨[], ?_, fun discarded => absurd rfl discarded⟩
      rw [accepted_eq, begun_eq, held, events_eq, List.append_nil, List.append_nil,
        List.append_assoc]
      rfl
    told_stopped := fun isTold => unfolds.told_stopped isTold }

/-- A worker that takes up its next task begins an event or its end. -/
theorem takeUp
    (unfolds : scene.Unfolds definition opening base blank chronicle)
    (idle : scene.hand = none) :
    ∃ later, scene.takeUp.Unfolds definition opening base blank later := by
  rw [Scene.takeUp]
  split
  · exact ⟨chronicle, unfolds⟩
  · rename_i worker isWorker
    split
    · rename_i isTold
      refine ⟨chronicle, unfolds.of_close isTold ?_⟩
      have stage := unfolds.stage
      rw [isWorker, idle] at stage
      obtain ⟨opened, first, accounts, rfl, opens, handles⟩ := stage.of_idle
      rw [isTold, isWorker, unfolds.definition_eq]
      exact .closing opens handles (.refl _)
    · rename_i working
      split
      · rename_i event queue popped
        exact unfolds.of_pop (Bool.eq_false_iff.mpr working) isWorker idle popped
      · rename_i ticket queue popped
        have events_eq : queue.events = scene.machine.session.queue.events := by
          rw [Queue.events, Queue.events, Queue.items_of_pop?_eq_some popped]
          rfl
        exact ⟨chronicle, unfolds.of_proceeds (.of_eq rfl events_eq rfl rfl id id) rfl rfl
          unfolds.stage (List.append_nil _).symm⟩
      · exact ⟨chronicle, unfolds⟩

/-- A worker that makes a request or lays down a task gets further. -/
theorem advance
    (forest : definition.graph.IsForest)
    (fits : definition.table.Fits definition.graph)
    (unfolds : scene.Unfolds definition opening base blank chronicle) :
    ∃ later, scene.advance.Unfolds definition opening base blank later := by
  rw [Scene.advance]
  split
  · rename_i idle
    exact unfolds.takeUp idle
  · rename_i task worker done
    have stage := unfolds.stage
    rw [done] at stage
    obtain ⟨later, stage, deeds_eq⟩ := stage.of_done forest fits
    exact ⟨later, unfolds.of_proceeds (.refl _) rfl rfl stage
      (deeds_eq.trans (List.append_nil _).symm)⟩
  · rename_i task work _ busy
    have stage := unfolds.stage
    rw [busy] at stage
    obtain ⟨deeds, leads, proceeds⟩ := work.leads_step scene.machine.session
    obtain ⟨later, stage, deeds_eq⟩ := stage.of_leads leads
    exact ⟨later, unfolds.of_proceeds proceeds rfl rfl stage deeds_eq⟩

/-- Whatever happens next, the chronicle goes on. -/
theorem apply
    (forest : definition.graph.IsForest)
    (fits : definition.table.Fits definition.graph)
    (unfolds : scene.Unfolds definition opening base blank chronicle)
    (move : Move κ τ ω) :
    ∃ later, (scene.apply move).Unfolds definition opening base blank later := by
  cases move with
  | operation operation =>
      by_cases byWorker : operation = .advance
      · subst byWorker
        exact unfolds.advance forest fits
      · obtain ⟨proceeds, definition_eq, worker_eq⟩ :=
          Machine.proceeds_apply unfolds.begun byWorker
        rw [apply_of_ne_advance scene byWorker]
        refine ⟨chronicle, unfolds.of_proceeds proceeds definition_eq rfl ?_
          (List.append_nil _).symm⟩
        rw [worker_eq]
        exact unfolds.stage
  | tell =>
      refine ⟨chronicle,
        { unfolds with stage := unfolds.stage.tell _, held := ?_, told_stopped := ?_ }⟩
      · obtain ⟨discarded, held, only_told⟩ := unfolds.held
        exact ⟨discarded, held, fun some => by simp [Scene.apply, only_told some]⟩
      · intro isTold
        rcases Bool.or_eq_true_iff.mp isTold with before | stopped
        · exact unfolds.told_stopped before
        · exact beq_iff_eq.mp stopped

/-- Whatever happens, the chronicle goes on. -/
theorem perform
    (forest : definition.graph.IsForest)
    (fits : definition.table.Fits definition.graph)
    (unfolds : scene.Unfolds definition opening base blank chronicle)
    (moves : List (Move κ τ ω)) :
    ∃ later, (scene.perform moves).Unfolds definition opening base blank later := by
  induction moves generalizing scene chronicle with
  | nil => exact ⟨chronicle, unfolds⟩
  | cons move moves inductionHypothesis =>
      obtain ⟨between, unfolds⟩ := unfolds.apply forest fits move
      exact inductionHypothesis unfolds

end Unfolds
end Scene

/-! ## Courses -/

namespace Work

/-- What a worker does first when its machine begins. -/
inductive Begins (definition : Definition κ τ ω) :
    Beginning κ → Work κ τ ω (Worker κ) → Prop
  /-- A fresh worker enters the initial configuration. -/
  | start (clock : Timestamp) (world : ω) :
      Begins definition .start
        (enterInitial definition (Machine.new definition clock world).freshWorker)
  /-- The position of a checkpoint is taken over. -/
  | restore
      {checkpoint : Checkpoint κ}
      {configuration : Configuration}
      (restored : Machine.configurationOf definition.graph checkpoint = .ok configuration) :
      Begins definition (.restore checkpoint)
        (.note .restored .restored
          (.done ⟨configuration, checkpoint.history, checkpoint.metadata⟩))

omit [DecidableEq τ] [Inspect τ] in
/-- Whatever a worker does first opens its life. -/
theorem Begins.opens
    {definition : Definition κ τ ω}
    {beginning : Beginning κ}
    {work : Work κ τ ω (Worker κ)}
    (begins : Begins definition beginning work) :
    (thenPublish definition work).Opens definition beginning.base := by
  cases begins with
  | start clock world =>
      refine opens_thenPublish ?_ fun _ _ => isApart_of_performs_enterInitial
      intro _ _ enters
      obtain ⟨_, _, _, _, _, rfl⟩ := performs_enterInitial enters
      rfl
  | restore restored =>
      refine opens_thenPublish ?_ ?_
      · intro _ _ restores
        simp only [performs_note_iff, performs_done_iff] at restores
        obtain ⟨_, _, _, rfl⟩ := restores
        rfl
      · intro _ _ restores deed member
        simp only [performs_note_iff, performs_done_iff] at restores
        obtain ⟨_, rfl, rfl, _⟩ := restores
        rw [List.mem_singleton.mp member]
        exact .restored

end Work

namespace Scene

/-- A machine that has just been set running has an empty chronicle. -/
theorem unfolds_launched
    (machine : Machine κ τ ω)
    (worker_eq : machine.worker = none)
    (nothingDone : machine.session.deeds = [])
    (nothingAccepted : machine.session.accepted = [])
    (nothingQueued : machine.session.queue.events = [])
    (base : UInt64)
    (opening : Work κ τ ω (Worker κ)) :
    (launched machine base opening).Unfolds machine.definition
      (Work.thenPublish machine.definition opening) base machine.session.published
      ⟨[], [], []⟩ := by
  have nothingBegun : (launched machine base opening).machine.session.begun = [] := by
    rw [Session.begun_eq_filterMap_deeds]
    exact congrArg _ nothingDone
  exact {
    definition_eq := rfl
    begun := by simp [launched]
    stage := by
      rw [launched, worker_eq]
      exact .opening (.refl _)
    deeds_eq := nothingDone
    shown_eq := by
      change _ = Session.shownAfter _ machine.session.deeds
      rw [nothingDone]
      rfl
    numbered := Session.isNumbered_of_nothing rfl nothingAccepted
    held := by
      refine ⟨[], ?_, fun discarded => absurd rfl discarded⟩
      rw [nothingBegun]
      exact nothingAccepted.trans nothingQueued.symm
    told_stopped := by simp [launched] }

/-- A machine that is set running begins with an opening. -/
theorem unfolds_begin
    {definition : Definition κ τ ω}
    {clock : Timestamp}
    {world : ω}
    {beginning : Beginning κ}
    {first : Scene κ τ ω}
    (accepted : begin (Machine.new definition clock world) beginning = .ok first) :
    ∃ work, Work.Begins definition beginning work ∧
      first.Unfolds definition (Work.thenPublish definition work) beginning.base
        (Machine.new definition clock world).snapshot ⟨[], [], []⟩ := by
  cases beginning with
  | start =>
      cases accepted
      exact ⟨_, .start clock world,
        unfolds_launched (Machine.new definition clock world) rfl rfl rfl rfl 0 _⟩
  | restore checkpoint =>
      rw [begin] at accepted
      split at accepted
      · contradiction
      · rename_i configuration restored
        cases accepted
        refine ⟨_, .restore restored, ?_⟩
        let fresh := Machine.new definition clock world
        let warned : Machine κ τ ω :=
          { fresh with
            session := fresh.session.note (.renamed checkpoint.machine checkpoint.id) }
        rcases fresh.comparingName_cases checkpoint with same | noted
        · rw [same]
          exact unfolds_launched fresh rfl rfl rfl rfl _ _
        · rw [noted]
          exact unfolds_launched warned rfl rfl rfl rfl _ _

end Scene

omit [DecidableEq τ] in
/-- A draft that has been built leads to transitions that fit the graph. -/
theorem Definition.fits_of_build
    {draft : MachineDraft κ τ ω}
    {definition : Definition κ τ ω}
    (built : draft.build = .ok definition) :
    definition.table.Fits definition.graph := by
  unfold MachineDraft.build at built
  split at built
  · contradiction
  obtain ⟨graph, _, built⟩ := bind_eq_ok.mp built
  obtain ⟨table, tabled, built⟩ := bind_eq_ok.mp built
  cases built
  exact Table.fits_of_build tabled

namespace Course

/-- What the machine of a course shows before it begins. -/
def blank {definition : Definition κ τ ω} (course : Course definition) : Snapshot κ :=
  (Machine.new definition course.clock course.world).snapshot

/-- The scene at the end of a course is what a chronicle says that goes back to the
beginning. -/
theorem exists_unfolds_of_begins
    {draft : MachineDraft κ τ ω}
    {definition : Definition κ τ ω}
    (built : draft.build = .ok definition)
    (course : Course definition) :
    ∃ work chronicle, Work.Begins definition course.beginning work ∧
      course.scene.Unfolds definition (Work.thenPublish definition work) course.beginning.base
        course.blank chronicle := by
  have forest := (Definition.isWellFormed_of_build built).forest
  obtain ⟨work, begins, unfolds⟩ := Scene.unfolds_begin course.accepted
  obtain ⟨chronicle, unfolds⟩ :=
    unfolds.perform forest (Definition.fits_of_build built) course.moves
  exact ⟨work, chronicle, begins, unfolds⟩

/-- The scene at the end of a course is what a chronicle says. -/
theorem exists_unfolds
    {draft : MachineDraft κ τ ω}
    {definition : Definition κ τ ω}
    (built : draft.build = .ok definition)
    (course : Course definition) :
    ∃ opening chronicle, opening.Opens definition course.beginning.base ∧
      course.scene.Unfolds definition opening course.beginning.base course.blank chronicle := by
  obtain ⟨_, chronicle, begins, unfolds⟩ := course.exists_unfolds_of_begins built
  exact ⟨_, chronicle, begins.opens, unfolds⟩

end Course
end Statechart
