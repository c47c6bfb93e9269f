import Statechart.Proofs.Machine.Blindness

/-!
# What comes of refused calls

A call that a machine refuses leaves nothing behind but a remark in the journal, and the journal
decides nothing. So everything goes on as if the call had not been made, however often this
happens and whatever the machine is at.
-/

namespace Statechart

variable {κ τ ω : Type} [DecidableEq κ] [StateKey κ] [DecidableEq τ] [Inspect τ]

namespace Scene

/-- Two scenes go on in the same way, whatever happens. -/
structure GoesOnLike (first second : Scene κ τ ω) : Prop where
  /-- All callers are answered the same. -/
  replies_eq (moves : List (Move κ τ ω)) : first.replies moves = second.replies moves
  /-- The scenes stay the same in everything but what the journals tell of the time before. -/
  scenes_eq (moves : List (Move κ τ ω)) :
    ∃ common : Scene κ τ ω,
      first.liveThrough moves = common.withPast first.machine.session.journal ∧
        second.liveThrough moves = common.withPast second.machine.session.journal

/-- The scene without its journal. -/
def bare (scene : Scene κ τ ω) : Scene κ τ ω :=
  { scene with
    machine := { scene.machine with session := { scene.machine.session with journal := [] } } }

/-- A call is refused. -/
def isRefusal : Option (Except MachineError Unit) → Bool
  | some (.error _) => true
  | _ => false

/-- The moves without the calls that are refused. -/
def granted (scene : Scene κ τ ω) : List (Move κ τ ω) → List (Move κ τ ω)
  | [] => []
  | move :: moves =>
      if isRefusal (scene.reply? move) then (scene.live move).granted moves
      else move :: (scene.live move).granted moves

omit [DecidableEq τ] [Inspect τ] in
/-- What is refused is a call that the machine has a reason to refuse. -/
theorem exists_refuses_of_isRefusal
    {scene : Scene κ τ ω}
    {move : Move κ τ ω}
    (refused : isRefusal (scene.reply? move) = true) :
    ∃ operation error, move = .operation operation ∧ scene.machine.Refuses operation error := by
  cases move with
  | tell => contradiction
  | operation operation =>
      rw [reply?] at refused
      unfold isRefusal at refused
      split at refused
      · rename_i error answer
        exact ⟨operation, error, rfl, Machine.reply?_eq_error_iff.mp answer⟩
      · contradiction

/-- What has been noted makes no difference. -/
theorem IsBlind.goesOnLike_noting
    {scene : Scene κ τ ω}
    (isBlind : scene.IsBlind)
    (remarks : List (Activity κ τ)) :
    (scene.noting remarks).GoesOnLike scene := by
  have bareBlind : scene.bare.IsBlind := isBlind
  have noted_eq : scene.noting remarks =
      scene.bare.withPast (scene.noting remarks).machine.session.journal := rfl
  have scene_eq : scene = scene.bare.withPast scene.machine.session.journal := rfl
  constructor
  · intro moves
    rw [noted_eq, bareBlind.replies_withPast, scene_eq, bareBlind.replies_withPast]
    rfl
  · intro moves
    refine ⟨scene.bare.liveThrough moves, ?_, ?_⟩
    · rw [← bareBlind.liveThrough_withPast, ← noted_eq]
    · rw [← bareBlind.liveThrough_withPast, ← scene_eq]

/-- Without the calls that are refused the same is answered to the others, and all but the
journal comes to the same. -/
theorem IsBlind.granted
    {scene : Scene κ τ ω}
    (isBlind : scene.IsBlind)
    (moves : List (Move κ τ ω)) :
    scene.replies (scene.granted moves) =
        (scene.replies moves).filter (fun reply => !isRefusal reply) ∧
      (scene.liveThrough (scene.granted moves)).bare = (scene.liveThrough moves).bare := by
  induction moves generalizing scene with
  | nil => exact ⟨rfl, rfl⟩
  | cons move moves inductionHypothesis =>
      obtain ⟨replies_eq, bare_eq⟩ := inductionHypothesis (isBlind.live move)
      rw [Scene.granted, replies, liveThrough_cons]
      split
      · rename_i refused
        obtain ⟨operation, error, rfl, refuses⟩ := exists_refuses_of_isRefusal refused
        have same := live_of_refuses refuses ▸
          isBlind.goesOnLike_noting (scene.machine.remarks operation)
        obtain ⟨common, noted_eq, scene_eq⟩ :=
          same.scenes_eq ((scene.live (.operation operation)).granted moves)
        constructor
        · rw [List.filter_cons_of_neg (by simpa using refused), ← replies_eq, same.replies_eq]
        · rw [← bare_eq, scene_eq, noted_eq]
          rfl
      · rename_i answered
        constructor
        · rw [replies, replies_eq, List.filter_cons_of_pos (by simpa using answered)]
        · rw [liveThrough_cons, bare_eq]

end Scene

namespace Life

variable {definition : Definition κ τ ω}

/-- Nothing is in hand at the creation. -/
theorem isBlind_created (life : Life definition) : life.created.IsBlind :=
  Scene.isBlind_of_idle rfl

/-- The work in hand is blind at any time. -/
theorem isBlind_scene (life : Life definition) : life.scene.IsBlind :=
  life.isBlind_created.liveThrough life.moves

/-- What a machine refuses does it no harm. -/
structure Withstands (life : Life definition) : Prop where
  /-- A call is refused for a reason, and this changes nothing. At most it is noted. Everything
  goes on as if the call had not been made. -/
  refused {operation : Operation κ τ ω} {error : MachineError} :
    life.scene.machine.reply? operation = some (.error error) →
      life.scene.machine.Refuses operation error ∧
        life.scene.live (.operation operation) =
          life.scene.noting (life.scene.machine.remarks operation) ∧
        (life.scene.live (.operation operation)).GoesOnLike life.scene
  /-- It is noted only that a checkpoint has another name, or that there is no place for an
  event. No callback is run. -/
  remarks (operation : Operation κ τ ω) :
    ∀ activity ∈ life.scene.machine.remarks operation,
      (∃ name id, activity = .renamed name id) ∨ ∃ event, activity = .refused event
  /-- A machine that refuses to stop goes on. -/
  stop {error : MachineError} :
    life.scene.machine.reply? .requestStop = some (.error error) →
      life.scene.machine.stop = (.error error, life.scene.machine)
  /-- An event that a callback queues is refused in the same way. The callback goes on with the
  answer. -/
  callback
      {task : Task τ}
      {event : Event τ}
      {next : Except MachineError Unit → Work κ τ ω (Worker κ)}
      {error : MachineError} :
    life.scene.hand = some (task, .fire event next) →
      life.scene.machine.reply? (.fire event) = some (.error error) →
        life.scene.live (.operation .advance) =
          { life.scene.noting (life.scene.machine.remarks (.fire event)) with
            hand := some (task, next (.error error)) }
  /-- Without all the calls that have been refused the others would have been answered the same,
  and all but the journal would be the same. -/
  granted :
    life.created.replies (life.created.granted life.moves) =
        (life.created.replies life.moves).filter (fun reply => !Scene.isRefusal reply) ∧
      (life.created.liveThrough (life.created.granted life.moves)).bare = life.scene.bare
  /-- A machine that has not begun is as it was created, with its own name and a history with its
  own limit. It starts when it is asked to, and it takes over every checkpoint that stands for a
  configuration. -/
  created :
    life.scene.machine.session.phase = .created →
      life.scene.IsFresh definition life.clock life.world ∧
        life.scene.machine.name = definition.settings.name ∧
        life.scene.machine.freshWorker.history = .empty definition.settings.historyLimit ∧
        life.scene.beginning? (.operation (.start true)) = some .start ∧
        ∀ checkpoint,
          life.scene.beginning? (.operation (.startFrom checkpoint true)) =
              some (.restore checkpoint) ↔
            ∃ configuration,
              Machine.configurationOf definition.graph checkpoint = .ok configuration
  /-- A machine begins at most once. -/
  once : (life.created.beginnings life.moves).length ≤ 1
  /-- It begins before it is stopped. -/
  phases : (life.moves.scanl Scene.live life.created).IsChain fun before after =>
    before.machine.session.phase.Follows after.machine.session.phase

/-- A machine that has not begun can begin as it was created. -/
theorem of_created
    (life : Life definition)
    (created : life.scene.machine.session.phase = .created) :
    life.scene.IsFresh definition life.clock life.world ∧
      life.scene.machine.name = definition.settings.name ∧
      life.scene.machine.freshWorker.history = .empty definition.settings.historyLimit ∧
      life.scene.beginning? (.operation (.start true)) = some .start ∧
      ∀ checkpoint,
        life.scene.beginning? (.operation (.startFrom checkpoint true)) =
            some (.restore checkpoint) ↔
          ∃ configuration,
            Machine.configurationOf definition.graph checkpoint = .ok configuration := by
  have fresh := life.isFresh_scene created
  obtain ⟨now, state, remarks, scene_eq, _⟩ := id fresh
  have definition_eq : life.scene.machine.definition = definition := by
    rw [scene_eq]
    rfl
  have idle_eq : life.scene = life.scene.machine.scene := by
    rw [scene_eq]
    rfl
  refine ⟨fresh, ?_, ?_, ?_, fun checkpoint => ?_⟩
  · rw [Machine.name, definition_eq]
  · rw [scene_eq]
    rfl
  · rw [idle_eq]
    exact Scene.beginning?_call created .start rfl
  · have accepts_iff : (∃ first, Scene.begin life.scene.machine (.restore checkpoint) = .ok first) ↔
        ∃ configuration, Machine.configurationOf life.scene.machine.definition.graph checkpoint =
          .ok configuration :=
      Scene.exists_begin_restore_iff
    rw [definition_eq] at accepts_iff
    rw [← accepts_iff]
    constructor
    · exact fun begins => ⟨_, (Scene.of_beginning? begins).2.1⟩
    · rintro ⟨first, accepted⟩
      rw [idle_eq]
      exact Scene.beginning?_call created (.restore checkpoint) accepted

/-- Every machine withstands all that it refuses. -/
theorem withstands :
    (∀ course : Course definition, ∃ life : Life definition, life.scene = course.scene) ∧
      ∀ life : Life definition, life.Withstands := by
  refine ⟨fun course => course.exists_life, fun life => ?_⟩
  exact {
    refused := by
      intro operation error answer
      have refuses := Machine.reply?_eq_error_iff.mp answer
      have live_eq := Scene.live_of_refuses refuses
      refine ⟨refuses, live_eq, ?_⟩
      rw [live_eq]
      exact life.isBlind_scene.goesOnLike_noting _
    remarks := life.scene.machine.of_mem_remarks
    stop := fun answer => (Machine.reply?_eq_error_iff.mp answer).stop_eq
    callback := by
      intro task event next error inHand answer
      have refuses := Machine.reply?_eq_error_iff.mp answer
      have fired : life.scene.machine.session.fire event =
          (.error error, (life.scene.machine.noting
            (life.scene.machine.remarks (.fire event))).session) := by
        rw [← refuses.apply_eq]
        exact Prod.ext (Option.some.inj answer) rfl
      have live_eq : life.scene.live (.operation .advance) = life.scene.advance := rfl
      rw [live_eq, Scene.advance, inHand]
      simp only [Work.step, fired]
      rfl
    granted := life.isBlind_created.granted life.moves
    created := fun created => life.of_created created
    once := life.created.length_beginnings_le life.moves
    phases := life.created.follows_liveThrough life.moves }

/-! ## An example -/

open Run (crossing midnight)

/-- A machine with a place for one event. -/
def cramped : Definition String String Unit :=
  { crossing [] with settings := Settings.standard.withQueueCapacity 1 }

/-- A checkpoint of another machine with a state that is not known here. -/
def stray : Checkpoint String :=
  { (Machine.new cramped midnight ()).checkpoint .nil with
    machine := "elsewhere"
    active := ["nowhere"] }

/-- A life in which most calls come at the wrong time. -/
def untimely : Life cramped where
  clock := midnight
  world := ()
  moves := List.map .operation
    [.startFrom stray true, .start false, .fire (.new .nil "cross"), .requestStop,
      .startFrom stray true, .start true, .start true, .fire (.new .nil "cross"),
      .fire (.new .nil "cross"), .requestStop, .fire (.new .nil "cross"), .start true,
      .requestStop]

/-- Three of the calls are granted. -/
example :
    untimely.created.replies untimely.moves =
      [some (.error (.checkpoint (.unknownState "nowhere"))), some (.error .noRuntime),
        some (.error .notRunning), some (.error .notRunning),
        some (.error (.checkpoint (.unknownState "nowhere"))), some (.ok ()),
        some (.error .alreadyStarted), some (.ok ()), some (.error (.queueFull 1)),
        some (.ok ()), some (.error .notRunning), some (.error .stopped),
        some (.error .stopped)] := by
  cbv

end Life
end Statechart
