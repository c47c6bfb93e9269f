import Statechart.Proofs.Machine.Answers
import Statechart.Proofs.Machine.Awaiting
import Statechart.Proofs.Machine.Unfolding
import Statechart.Proofs.Results

/-!
# The life of a machine

The life of a machine goes from its creation to any later moment. Callers may ask it for anything
at any time, also before it has begun and after it has ended. It begins at most once, and before
it begins it stays as it was created.
-/

namespace Statechart

variable {κ τ ω : Type}

/-! ## Phases -/

/-- A machine does not begin again, and does not come back from its end. -/
inductive Phase.Follows : Phase → Phase → Prop
  /-- Nothing changes. -/
  | stays (phase : Phase) : Follows phase phase
  /-- A machine that has been created begins. -/
  | begins : Follows .created .running
  /-- A machine that runs is stopped. -/
  | ends : Follows .running .stopped

theorem Phase.Follows.of_eq {before after : Phase} (phase_eq : after = before) :
    before.Follows after :=
  phase_eq ▸ .stays after

/-- What has begun has begun for good. -/
theorem Phase.Follows.not_created
    {before after : Phase}
    (follows : before.Follows after)
    (begun : before ≠ .created) :
    after ≠ .created := by
  cases follows with
  | stays => exact begun
  | begins => nofun
  | ends => nofun

/-! ## Scenes of a life -/

namespace Scene

variable [DecidableEq κ] [StateKey κ] [DecidableEq τ] [Inspect τ]

/-- How a machine begins with a move, if it does. -/
def beginning? (scene : Scene κ τ ω) : Move κ τ ω → Option (Beginning κ)
  | .operation (.start hasRuntime) =>
      (scene.machine.start hasRuntime).1.toOption.map fun _ => .start
  | .operation (.startFrom checkpoint hasRuntime) =>
      (scene.machine.startFrom checkpoint hasRuntime).1.toOption.map fun _ => .restore checkpoint
  | _ => none

/-- The scene after something has happened, where the machine may yet begin. -/
def live (scene : Scene κ τ ω) (move : Move κ τ ω) : Scene κ τ ω :=
  match scene.beginning? move with
  | none => scene.apply move
  | some beginning => (begin scene.machine beginning).toOption.getD scene

/-- The scene after several moves, where the machine may yet begin. -/
def liveThrough (scene : Scene κ τ ω) (moves : List (Move κ τ ω)) : Scene κ τ ω :=
  moves.foldl live scene

@[simp] theorem liveThrough_cons
    (scene : Scene κ τ ω)
    (move : Move κ τ ω)
    (moves : List (Move κ τ ω)) :
    scene.liveThrough (move :: moves) = (scene.live move).liveThrough moves := rfl

/-- What is answered to a move, if it is a call. -/
def reply? (scene : Scene κ τ ω) : Move κ τ ω → Option (Except MachineError Unit)
  | .operation operation => scene.machine.reply? operation
  | .tell => none

/-- What is answered in the course of several moves. -/
def replies (scene : Scene κ τ ω) : List (Move κ τ ω) → List (Option (Except MachineError Unit))
  | [] => []
  | move :: moves => scene.reply? move :: (scene.live move).replies moves

/-- How a machine begins in the course of several moves. -/
def beginnings (scene : Scene κ τ ω) : List (Move κ τ ω) → List (Beginning κ)
  | [] => []
  | move :: moves => (scene.beginning? move).toList ++ (scene.live move).beginnings moves

/-- The scene after something has been noted. -/
def noting (scene : Scene κ τ ω) (remarks : List (Activity κ τ)) : Scene κ τ ω :=
  { scene with machine := scene.machine.noting remarks }

variable {scene : Scene κ τ ω}

/-- A call that is refused changes nothing in the scene. -/
theorem live_of_refuses
    {operation : Operation κ τ ω}
    {error : MachineError}
    (refuses : scene.machine.Refuses operation error) :
    scene.live (.operation operation) =
      scene.noting (scene.machine.remarks operation) := by
  have refused := Machine.reply?_eq_error_iff.mpr refuses
  have noBeginning : scene.beginning? (.operation operation) = none := by
    cases operation with
    | start hasRuntime => rw [beginning?, Option.some.inj refused]; rfl
    | startFrom checkpoint hasRuntime => rw [beginning?, Option.some.inj refused]; rfl
    | _ => rfl
  have byCaller : operation ≠ .advance := by
    rintro rfl
    contradiction
  rw [live, noBeginning, noting, ← refuses.apply_eq]
  exact scene.apply_of_ne_advance byCaller

/-- Only a machine that has not begun begins. It runs then. -/
theorem of_beginning?
    {move : Move κ τ ω}
    {beginning : Beginning κ}
    (begins : scene.beginning? move = some beginning) :
    scene.machine.session.phase = .created ∧
      begin scene.machine beginning = .ok (scene.live move) ∧
        (scene.live move).machine.session.phase = .running := by
  have live_eq : scene.live move = (begin scene.machine beginning).toOption.getD scene := by
    rw [live, begins]
  suffices accepts : scene.machine.session.phase = .created ∧
      ∃ first, begin scene.machine beginning = .ok first ∧
        first.machine.session.phase = .running by
    obtain ⟨created, first, accepted, running⟩ := accepts
    rw [accepted] at live_eq
    rw [live_eq]
    exact ⟨created, accepted, running⟩
  unfold beginning? at begins
  split at begins
  · rename_i hasRuntime
    obtain ⟨_, answered, rfl⟩ := Option.map_eq_some_iff.mp begins
    exact ⟨(Machine.launch_eq_ok_iff.mp (eq_ok_of_toOption answered)).1, _, rfl, rfl⟩
  · rename_i checkpoint hasRuntime
    obtain ⟨_, answered, rfl⟩ := Option.map_eq_some_iff.mp begins
    have accepted := eq_ok_of_toOption answered
    rw [Machine.startFrom_eq] at accepted
    rw [begin]
    cases restored : Machine.configurationOf scene.machine.definition.graph checkpoint with
    | error problem =>
        rw [restored] at accepted
        contradiction
    | ok configuration =>
        rw [restored] at accepted
        have created := (Machine.launch_eq_ok_iff.mp accepted).1
        rw [Machine.phase_comparingName] at created
        exact ⟨created, _, rfl, rfl⟩
  · contradiction

omit [DecidableEq τ] [Inspect τ] in
/-- A machine that does not begin when it is asked to start refuses to. -/
theorem exists_refuses_start
    {hasRuntime : Bool}
    (noBeginning : scene.beginning? (.operation (.start hasRuntime)) = none) :
    ∃ error, scene.machine.Refuses (.start hasRuntime) error := by
  obtain ⟨error, answer⟩ := eq_error_of_toOption (Option.map_eq_none_iff.mp noBeginning)
  exact ⟨error, Machine.reply?_eq_error_iff.mp (congrArg some answer)⟩

omit [DecidableEq τ] [Inspect τ] in
theorem exists_refuses_startFrom
    {checkpoint : Checkpoint κ}
    {hasRuntime : Bool}
    (noBeginning : scene.beginning? (.operation (.startFrom checkpoint hasRuntime)) = none) :
    ∃ error, scene.machine.Refuses (.startFrom checkpoint hasRuntime) error := by
  obtain ⟨error, answer⟩ := eq_error_of_toOption (Option.map_eq_none_iff.mp noBeginning)
  exact ⟨error, Machine.reply?_eq_error_iff.mp (congrArg some answer)⟩

/-- A machine that has begun does not begin again. -/
theorem live_of_begun
    (begun : scene.machine.session.phase ≠ .created)
    (move : Move κ τ ω) :
    scene.beginning? move = none ∧ scene.live move = scene.apply move := by
  have noBeginning : scene.beginning? move = none := by
    by_contra some
    obtain ⟨_, begins⟩ := Option.ne_none_iff_exists'.mp some
    exact begun (of_beginning? begins).1
  refine ⟨noBeginning, ?_⟩
  rw [live, noBeginning]

omit [DecidableEq τ] [Inspect τ] [DecidableEq κ] [StateKey κ] in
/-- A request of the worker does not set its machine running, and does not stop it. -/
theorem phase_step {α : Type} (work : Work κ τ ω α) (session : Session κ τ ω) :
    (work.step session).2.phase = session.phase := by
  cases work with
  | fire event next => exact (session.passes_fire event).phase_eq
  | _ => rfl

/-- The worker does not set its machine running, and does not stop it. -/
theorem phase_advance (scene : Scene κ τ ω) :
    scene.advance.machine.session.phase = scene.machine.session.phase := by
  unfold advance
  split
  · unfold takeUp
    extract_lets machine
    split
    · rfl
    · split
      · exact machine.close_keeps.1
      · split <;> rfl
  · rfl
  · exact phase_step _ _

/-- With every move a machine stays what it is, begins, or is stopped. -/
theorem follows_live (scene : Scene κ τ ω) (move : Move κ τ ω) :
    scene.machine.session.phase.Follows (scene.live move).machine.session.phase := by
  cases begins : scene.beginning? move with
  | some beginning =>
      obtain ⟨created, _, running⟩ := of_beginning? begins
      rw [created, running]
      exact .begins
  | none =>
      have live_eq : scene.live move = scene.apply move := by rw [live, begins]
      cases move with
      | tell => exact live_eq ▸ .stays _
      | operation operation =>
          cases operation with
          | start hasRuntime =>
              obtain ⟨_, refuses⟩ := exists_refuses_start begins
              rw [live_of_refuses refuses]
              exact .stays _
          | startFrom checkpoint hasRuntime =>
              obtain ⟨_, refuses⟩ := exists_refuses_startFrom begins
              rw [live_of_refuses refuses]
              exact .stays _
          | requestStop =>
              rw [live_eq]
              simp only [apply, Machine.apply, Machine.requestStop]
              split
              · exact .stays _
              · exact .stays _
              · rename_i running
                exact running ▸ .ends
          | fire event =>
              rw [live_eq]
              exact .of_eq (scene.machine.session.passes_fire event).phase_eq
          | settle => exact live_eq ▸ .of_eq scene.machine.phase_settle
          | advance => exact live_eq ▸ .of_eq scene.phase_advance
          | deposit => exact live_eq ▸ .stays _
          | change world => exact live_eq ▸ .stays _
          | pass clock => exact live_eq ▸ .stays _

/-- What has begun goes on as it does in the course of time. -/
theorem liveThrough_of_begun
    (begun : scene.machine.session.phase ≠ .created)
    (moves : List (Move κ τ ω)) :
    scene.beginnings moves = [] ∧ scene.liveThrough moves = scene.perform moves := by
  induction moves generalizing scene with
  | nil => exact ⟨rfl, rfl⟩
  | cons move moves inductionHypothesis =>
      obtain ⟨noBeginning, live_eq⟩ := live_of_begun begun move
      have stillBegun : (scene.apply move).machine.session.phase ≠ .created :=
        live_eq ▸ (scene.follows_live move).not_created begun
      obtain ⟨none, through_eq⟩ := inductionHypothesis stillBegun
      constructor
      · rw [beginnings, noBeginning, live_eq, none]
        rfl
      · rw [liveThrough_cons, live_eq, through_eq, perform_cons]

theorem not_created_liveThrough
    (begun : scene.machine.session.phase ≠ .created)
    (moves : List (Move κ τ ω)) :
    (scene.liveThrough moves).machine.session.phase ≠ .created := by
  induction moves generalizing scene with
  | nil => exact begun
  | cons move moves inductionHypothesis =>
      exact inductionHypothesis ((scene.follows_live move).not_created begun)

/-- A machine begins at most once. -/
theorem length_beginnings_le (scene : Scene κ τ ω) (moves : List (Move κ τ ω)) :
    (scene.beginnings moves).length ≤ 1 := by
  induction moves generalizing scene with
  | nil => exact Nat.zero_le _
  | cons move moves inductionHypothesis =>
      rw [beginnings]
      cases begins : scene.beginning? move with
      | none => exact inductionHypothesis _
      | some beginning =>
          obtain ⟨_, _, running⟩ := of_beginning? begins
          rw [(liveThrough_of_begun (by simp [running]) moves).1]
          exact le_rfl

/-- The phases follow one another. -/
theorem follows_liveThrough (scene : Scene κ τ ω) (moves : List (Move κ τ ω)) :
    (moves.scanl live scene).IsChain fun before after =>
      before.machine.session.phase.Follows after.machine.session.phase := by
  induction moves generalizing scene with
  | nil => exact .singleton _
  | cons move moves inductionHypothesis =>
      rw [List.scanl_cons]
      refine (inductionHypothesis (scene.live move)).cons fun after isNext => ?_
      cases moves with
      | nil =>
          obtain rfl : scene.live move = after := by simpa using isNext
          exact scene.follows_live move
      | cons =>
          obtain rfl : scene.live move = after := by simpa [List.scanl_cons] using isNext
          exact scene.follows_live move

/-! ## Machines that have not begun -/

/-- The machine is as it was created at a given time, but for the time, the state of its client
and what it has noted about names in checkpoints. -/
def IsFresh
    (definition : Definition κ τ ω)
    (clock : Timestamp)
    (world : ω)
    (scene : Scene κ τ ω) : Prop :=
  ∃ now state remarks,
    scene = Machine.scene
      { Machine.new definition clock world with
        session :=
          { Session.initial definition.settings clock world with
            clock := now
            world := state
            journal := remarks } } ∧
      ∀ activity ∈ remarks, ∃ name id, activity = .renamed name id

namespace IsFresh

variable
  {definition : Definition κ τ ω}
  {clock : Timestamp}
  {world : ω}

omit [DecidableEq κ] [StateKey κ] [DecidableEq τ] [Inspect τ] in
theorem created (fresh : scene.IsFresh definition clock world) :
    scene.machine.session.phase = .created := by
  obtain ⟨_, _, _, rfl, _⟩ := fresh
  rfl

/-- Before the beginning only names in checkpoints are noted. -/
theorem of_refuses
    (fresh : scene.IsFresh definition clock world)
    {operation : Operation κ τ ω}
    {error : MachineError}
    (refuses : scene.machine.Refuses operation error) :
    (scene.live (.operation operation)).IsFresh definition clock world := by
  have notRunning : scene.machine.isRunning = false := by
    rw [Machine.isRunning, Session.isRunning, fresh.created]
    rfl
  have onlyNames : ∀ activity ∈ scene.machine.remarks operation,
      ∃ name id, activity = .renamed name id := by
    cases operation with
    | startFrom checkpoint hasRuntime =>
        rw [Machine.remarks]
        split
        · simp
        · simp
    | fire event => simp [Machine.remarks, notRunning]
    | _ => simp [Machine.remarks]
  rw [live_of_refuses refuses]
  obtain ⟨now, state, remarks, rfl, names⟩ := fresh
  exact ⟨now, state, _, rfl, List.forall_mem_append.mpr ⟨onlyNames, names⟩⟩

/-- A machine that does not begin stays as it was created. -/
theorem live_of_no_beginning
    (fresh : scene.IsFresh definition clock world)
    {move : Move κ τ ω}
    (noBeginning : scene.beginning? move = none) :
    (scene.live move).IsFresh definition clock world := by
  have live_eq : scene.live move = scene.apply move := by rw [Scene.live, noBeginning]
  have notRunning : scene.machine.session.phase ≠ .running := by simp [fresh.created]
  cases move with
  | tell =>
      rw [live_eq]
      obtain ⟨now, state, remarks, rfl, names⟩ := fresh
      exact ⟨now, state, remarks, rfl, names⟩
  | operation operation =>
      cases operation with
      | start hasRuntime =>
          obtain ⟨_, refuses⟩ := exists_refuses_start noBeginning
          exact fresh.of_refuses refuses
      | startFrom checkpoint hasRuntime =>
          obtain ⟨_, refuses⟩ := exists_refuses_startFrom noBeginning
          exact fresh.of_refuses refuses
      | fire event => exact fresh.of_refuses (.fire notRunning event)
      | settle => exact fresh.of_refuses (.settle notRunning)
      | requestStop => exact fresh.of_refuses (.stopCreated fresh.created)
      | advance =>
          rw [live_eq]
          obtain ⟨now, state, remarks, rfl, names⟩ := fresh
          exact ⟨now, state, remarks, rfl, names⟩
      | deposit =>
          rw [live_eq]
          obtain ⟨now, state, remarks, rfl, names⟩ := fresh
          exact ⟨now, state, remarks, rfl, names⟩
      | change world =>
          rw [live_eq]
          obtain ⟨now, state, remarks, rfl, names⟩ := fresh
          exact ⟨now, world, remarks, rfl, names⟩
      | pass clock =>
          rw [live_eq]
          obtain ⟨now, state, remarks, rfl, names⟩ := fresh
          exact ⟨clock, state, remarks, rfl, names⟩

/-- A machine that has not begun begins, or it stays as it was created. -/
theorem live
    (fresh : scene.IsFresh definition clock world)
    (move : Move κ τ ω) :
    (scene.live move).IsFresh definition clock world ∨
      (scene.live move).machine.session.phase ≠ .created := by
  cases begins : scene.beginning? move with
  | some beginning =>
      obtain ⟨_, _, running⟩ := of_beginning? begins
      exact .inr (by simp [running])
  | none => exact .inl (fresh.live_of_no_beginning begins)

/-- A machine that does not stay as it was created begins, and then it goes on. -/
theorem exists_begin
    (fresh : scene.IsFresh definition clock world)
    (moves : List (Move κ τ ω)) :
    (scene.liveThrough moves).IsFresh definition clock world ∨
      ∃ (before first : Scene κ τ ω) (beginning : Beginning κ) (later : List (Move κ τ ω)),
        before.IsFresh definition clock world ∧ begin before.machine beginning = .ok first ∧
          scene.liveThrough moves = first.perform later := by
  induction moves generalizing scene with
  | nil => exact .inl fresh
  | cons move moves inductionHypothesis =>
      cases begins : scene.beginning? move with
      | none => exact inductionHypothesis (fresh.live_of_no_beginning begins)
      | some beginning =>
          obtain ⟨_, accepted, running⟩ := of_beginning? begins
          refine .inr ⟨scene, scene.live move, beginning, moves, fresh, accepted, ?_⟩
          rw [liveThrough_cons, (liveThrough_of_begun (by simp [running]) moves).2]

theorem liveThrough
    (fresh : scene.IsFresh definition clock world)
    (moves : List (Move κ τ ω)) :
    (scene.liveThrough moves).IsFresh definition clock world ∨
      (scene.liveThrough moves).machine.session.phase ≠ .created := by
  induction moves generalizing scene with
  | nil => exact .inl fresh
  | cons move moves inductionHypothesis =>
      rcases fresh.live move with stillFresh | begun
      · exact inductionHypothesis stillFresh
      · exact .inr (not_created_liveThrough begun moves)

end IsFresh
end Scene

/-! ## Lives -/

/-- The life of a machine from its creation on. -/
structure Life
    [DecidableEq κ]
    [StateKey κ]
    [DecidableEq τ]
    [Inspect τ]
    (definition : Definition κ τ ω) where
  /-- The time of the creation. -/
  clock : Timestamp
  /-- The state of the client at the creation. -/
  world : ω
  /-- What happens afterwards. -/
  moves : List (Move κ τ ω)

/-- How a caller asks for a beginning. -/
def Beginning.call : Beginning κ → Operation κ τ ω
  | .start => .start true
  | .restore checkpoint => .startFrom checkpoint true

namespace Life

variable
  [DecidableEq κ]
  [StateKey κ]
  [DecidableEq τ]
  [Inspect τ]
  {definition : Definition κ τ ω}

/-- The scene at the creation. -/
def created (life : Life definition) : Scene κ τ ω :=
  (Machine.new definition life.clock life.world).scene

/-- The scene after everything that has happened. -/
def scene (life : Life definition) : Scene κ τ ω :=
  life.created.liveThrough life.moves

/-- A machine that has not begun is as it was created. -/
theorem isFresh_scene
    (life : Life definition)
    (created : life.scene.machine.session.phase = .created) :
    life.scene.IsFresh definition life.clock life.world := by
  have fresh : life.created.IsFresh definition life.clock life.world :=
    ⟨life.clock, life.world, [], rfl, List.forall_mem_nil _⟩
  rcases fresh.liveThrough life.moves with stillFresh | begun
  · exact stillFresh
  · contradiction

end Life

/-- A machine can begin with a checkpoint that stands for a configuration. -/
theorem Scene.exists_begin_restore_iff
    [DecidableEq κ]
    [StateKey κ]
    {machine : Machine κ τ ω}
    {checkpoint : Checkpoint κ} :
    (∃ first, Scene.begin machine (.restore checkpoint) = .ok first) ↔
      ∃ configuration,
        Machine.configurationOf machine.definition.graph checkpoint = .ok configuration := by
  rw [Scene.begin]
  cases Machine.configurationOf machine.definition.graph checkpoint with
  | error problem => simp
  | ok configuration => simp

/-- A machine that accepts a beginning begins with it. -/
theorem Scene.beginning?_call
    [DecidableEq κ]
    [StateKey κ]
    [DecidableEq τ]
    [Inspect τ]
    {machine : Machine κ τ ω}
    (created : machine.session.phase = .created)
    (beginning : Beginning κ)
    {first : Scene κ τ ω}
    (accepted : Scene.begin machine beginning = .ok first) :
    machine.scene.beginning? (.operation beginning.call) = some beginning := by
  cases beginning with
  | start =>
      have answer : (machine.start true).1 = .ok () := Machine.launch_eq_ok_iff.mpr ⟨created, rfl⟩
      rw [Beginning.call, beginning?, Machine.scene, answer]
      rfl
  | restore checkpoint =>
      have answer : (machine.startFrom checkpoint true).1 = .ok () := by
        rw [Machine.startFrom_accepts_iff created]
        exact exists_begin_restore_iff.mp ⟨first, accepted⟩
      rw [Beginning.call, beginning?, Machine.scene, answer]
      rfl

/-- Every course is part of a life. -/
theorem Course.exists_life
    [DecidableEq κ]
    [StateKey κ]
    [DecidableEq τ]
    [Inspect τ]
    {definition : Definition κ τ ω}
    (course : Course definition) :
    ∃ life : Life definition, life.scene = course.scene := by
  have begins := Scene.beginning?_call rfl course.beginning course.accepted
  obtain ⟨_, begun, running⟩ := Scene.of_beginning? begins
  refine ⟨⟨course.clock, course.world, .operation course.beginning.call :: course.moves⟩, ?_⟩
  have first_eq := Except.ok.inj (begun.symm.trans course.accepted)
  rw [Life.scene, Life.created, Scene.liveThrough_cons,
    (Scene.liveThrough_of_begun (by simp [running]) _).2, first_eq]
  rfl

end Statechart
