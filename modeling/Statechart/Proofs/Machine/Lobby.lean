import Statechart.Proofs.Machine.Order

/-!
# Callers who wait

A caller who asks to wait first finds the machine running and then goes for a place in its
queue. If there is none, the caller waits in line and has another turn when a place has been
reserved. Between the turns of a caller anything may happen. A caller who is not interrupted
asks as if at once.
-/

namespace Statechart

variable {κ τ ω : Type}

namespace Queue

/-- A caller with a reserved place puts its marker there. -/
def place (queue : Queue τ) (ticket : Nat) : Queue τ :=
  if ticket ∈ queue.reserved then
    { queue with
      items := queue.items ++ [.marker ticket]
      reserved := queue.reserved.erase ticket }
  else queue

/-- A marker that is put in its place leaves the events alone. -/
@[simp] theorem events_place (queue : Queue τ) (ticket : Nat) :
    (queue.place ticket).events = queue.events := by
  unfold place
  split
  · simp [events]
  · rfl

theorem capacity_place (queue : Queue τ) (ticket : Nat) :
    (queue.place ticket).capacity = queue.capacity := by
  unfold place
  split <;> rfl

theorem capacity_enroll (queue : Queue τ) (ticket : Nat) :
    (queue.enroll ticket).capacity = queue.capacity := by
  rw [enroll, push?]
  split
  · rename_i pushed
    split at pushed
    · contradiction
    · cases pushed
      rfl
  · rfl

/-- All callers with a reserved place have their turns one after the other. -/
theorem foldl_place_reserved (queue : Queue τ) :
    queue.reserved.foldl place queue = queue.deposit := by
  obtain ⟨capacity, items, waiting, reserved⟩ := queue
  induction reserved generalizing items with
  | nil => simp [deposit]
  | cons ticket reserved inductionHypothesis =>
      have placed : place ⟨capacity, items, waiting, ticket :: reserved⟩ ticket =
          ⟨capacity, items ++ [.marker ticket], waiting, reserved⟩ := by
        simp [place]
      rw [List.foldl_cons, placed]
      refine (inductionHypothesis _).trans ?_
      simp [deposit]

end Queue

/-! ## Positions -/

/-- Where a worker is in its life. -/
inductive Position
  /-- It opens. -/
  | opening
  /-- It waits for its next task. -/
  | idle
  /-- It processes an event. -/
  | busy
  /-- It has closed its queue for good. -/
  | closed
  deriving DecidableEq

namespace Scene

/-- Where the worker is. -/
def position (scene : Scene κ τ ω) : Position :=
  match scene.hand, scene.machine.worker with
  | some (.opening, _), _ => .opening
  | some (.event _, _), _ => .busy
  | some (.closing, _), _ => .closed
  | none, some _ => .idle
  | none, none => .closed

/-- The events that have been processed to their ends. -/
def completed (scene : Scene κ τ ω) : List (Event τ) :=
  match scene.position with
  | .busy => scene.machine.session.begun.dropLast
  | _ => scene.machine.session.begun

/-- The scene with other callers who wait. -/
def withCallers
    (scene : Scene κ τ ω)
    (queue : Queue τ)
    (tickets : Nat)
    (answers : List (Nat × Except MachineError Unit)) : Scene κ τ ω :=
  { scene with
    machine :=
      { scene.machine with
        session := { scene.machine.session with queue }
        tickets
        answers } }

@[simp] theorem position_withCallers
    (scene : Scene κ τ ω)
    (queue : Queue τ)
    (tickets : Nat)
    (answers : List (Nat × Except MachineError Unit)) :
    (scene.withCallers queue tickets answers).position = scene.position := rfl

/-- Two scenes differ at most in who waits. Their events, what their workers are at, what
they show and what they have done are the same. -/
def SameButForCallers (before after : Scene κ τ ω) : Prop :=
  ∃ queue tickets answers,
    after = before.withCallers queue tickets answers ∧
      queue.capacity = before.machine.session.queue.capacity ∧
      queue.events = before.machine.session.queue.events

theorem SameButForCallers.refl (scene : Scene κ τ ω) : scene.SameButForCallers scene :=
  ⟨_, _, _, rfl, rfl, rfl⟩

end Scene

/-! ## Lobbies -/

/-- A scene with the callers who have found the machine running but have not gone for a place
in the queue yet. -/
structure Lobby (κ τ ω : Type) where
  scene : Scene κ τ ω
  asking : List Nat

/-- What can happen next where callers wait. -/
inductive Visit (κ τ ω : Type)
  /-- Something happens to the scene. -/
  | move (move : Move κ τ ω)
  /-- A caller asks to wait. -/
  | ask
  /-- A caller who has asked goes for a place in the queue. -/
  | send (ticket : Nat)
  /-- A caller with a reserved place puts its marker there. -/
  | place (ticket : Nat)

namespace Lobby

/-- The queue of the machine. -/
def queue (lobby : Lobby κ τ ω) : Queue τ :=
  lobby.scene.machine.session.queue

/-- How many callers have asked. -/
def tickets (lobby : Lobby κ τ ω) : Nat :=
  lobby.scene.machine.tickets

/-- What callers were answered, the latest first. -/
def answers (lobby : Lobby κ τ ω) : List (Nat × Except MachineError Unit) :=
  lobby.scene.machine.answers

/-- A caller asks to wait. The number is that of the answer to come. -/
def ask (lobby : Lobby κ τ ω) : Except MachineError Nat × Lobby κ τ ω :=
  match lobby.scene.machine.session.phase with
  | .created | .stopped => (.error .notRunning, lobby)
  | .running =>
      (.ok lobby.tickets,
        { scene := lobby.scene.withCallers lobby.queue (lobby.tickets + 1) lobby.answers
          asking := lobby.asking ++ [lobby.tickets] })

/-- A caller who has asked goes for a place in the queue. A queue that has been closed turns
the caller down. -/
def send (lobby : Lobby κ τ ω) (ticket : Nat) : Lobby κ τ ω :=
  if ticket ∈ lobby.asking then
    { scene :=
        if lobby.scene.position = .closed then
          lobby.scene.withCallers lobby.queue lobby.tickets
            ((ticket, .error .notRunning) :: lobby.answers)
        else
          lobby.scene.withCallers (lobby.queue.enroll ticket) lobby.tickets lobby.answers
      asking := lobby.asking.erase ticket }
  else lobby

/-- A caller with a reserved place puts its marker there. -/
def place (lobby : Lobby κ τ ω) (ticket : Nat) : Lobby κ τ ω :=
  { lobby with
    scene := lobby.scene.withCallers (lobby.queue.place ticket) lobby.tickets lobby.answers }

/-- A caller who goes for a place right after asking has asked at once. -/
theorem send_ask
    {lobby : Lobby κ τ ω}
    (running : lobby.scene.machine.session.phase = .running)
    (notClosed : lobby.scene.position ≠ .closed)
    (new : lobby.tickets ∉ lobby.asking) :
    lobby.ask.1 = lobby.scene.machine.settle.1 ∧
      lobby.ask.2.send lobby.tickets =
        { lobby with
          scene := { lobby.scene with machine := lobby.scene.machine.settle.2 } } := by
  have asked : lobby.ask = (.ok lobby.tickets,
      { scene := lobby.scene.withCallers lobby.queue (lobby.tickets + 1) lobby.answers
        asking := lobby.asking ++ [lobby.tickets] }) := by
    rw [ask, running]
  have stillAsking : lobby.tickets ∈ lobby.asking ++ [lobby.tickets] := by simp
  have gone : (lobby.asking ++ [lobby.tickets]).erase lobby.tickets = lobby.asking := by
    rw [List.erase_append_right _ new, List.erase_cons_head, List.append_nil]
  rw [asked, send, if_pos stillAsking, gone, Scene.position_withCallers, if_neg notClosed,
    Machine.settle, running]
  exact ⟨rfl, rfl⟩

/-! ## Waiting leaves everything else alone -/

theorem sameButForCallers_ask (lobby : Lobby κ τ ω) :
    lobby.scene.SameButForCallers lobby.ask.2.scene := by
  unfold ask
  split
  · exact .refl _
  · exact .refl _
  · exact ⟨_, _, _, rfl, rfl, rfl⟩

theorem sameButForCallers_send (lobby : Lobby κ τ ω) (ticket : Nat) :
    lobby.scene.SameButForCallers (lobby.send ticket).scene := by
  unfold send
  split
  · simp only
    split
    · exact ⟨_, _, _, rfl, rfl, rfl⟩
    · exact ⟨_, _, _, rfl, Queue.capacity_enroll _ _, Queue.events_enroll _ _⟩
  · exact .refl _

theorem sameButForCallers_place (lobby : Lobby κ τ ω) (ticket : Nat) :
    lobby.scene.SameButForCallers (lobby.place ticket).scene :=
  ⟨_, _, _, rfl, Queue.capacity_place _ _, Queue.events_place _ _⟩

/-! ## The course of time -/

variable [DecidableEq κ] [StateKey κ] [DecidableEq τ] [Inspect τ]

/-- The lobby after something has happened. -/
def apply (lobby : Lobby κ τ ω) : Visit κ τ ω → Lobby κ τ ω
  | .move move => { lobby with scene := lobby.scene.apply move }
  | .ask => lobby.ask.2
  | .send ticket => lobby.send ticket
  | .place ticket => lobby.place ticket

/-- The lobby after several things have happened. -/
def perform (lobby : Lobby κ τ ω) (visits : List (Visit κ τ ω)) : Lobby κ τ ω :=
  visits.foldl apply lobby

@[simp] theorem perform_nil (lobby : Lobby κ τ ω) : lobby.perform [] = lobby := rfl

@[simp] theorem perform_cons
    (lobby : Lobby κ τ ω)
    (visit : Visit κ τ ω)
    (visits : List (Visit κ τ ω)) :
    lobby.perform (visit :: visits) = (lobby.apply visit).perform visits := rfl

theorem perform_append (lobby : Lobby κ τ ω) (earlier later : List (Visit κ τ ω)) :
    lobby.perform (earlier ++ later) = (lobby.perform earlier).perform later :=
  List.foldl_append

/-- What happens to the scene alone. -/
theorem perform_moves (lobby : Lobby κ τ ω) (moves : List (Move κ τ ω)) :
    lobby.perform (moves.map .move) =
      { lobby with scene := lobby.scene.perform moves } := by
  induction moves generalizing lobby with
  | nil => rfl
  | cons move moves inductionHypothesis => exact inductionHypothesis _

end Lobby

namespace Scene
namespace Unfolds

variable
  [DecidableEq κ]
  [StateKey κ]
  [DecidableEq τ]
  [Inspect τ]
  {definition : Definition κ τ ω}
  {opening : Work κ τ ω (Worker κ)}
  {base : UInt64}
  {blank : Snapshot κ}
  {scene after : Scene κ τ ω}
  {chronicle : Chronicle κ τ ω}

/-- Where only the callers who wait are other ones, the chronicle stays. -/
theorem of_sameButForCallers
    (unfolds : scene.Unfolds definition opening base blank chronicle)
    (same : scene.SameButForCallers after) :
    after.Unfolds definition opening base blank chronicle := by
  obtain ⟨queue, tickets, answers, rfl, _, events_eq⟩ := same
  exact unfolds.of_proceeds (.of_eq rfl events_eq rfl rfl id id) rfl rfl unfolds.stage
    (List.append_nil _).symm

/-- Whatever happens where callers wait, the chronicle goes on. -/
theorem visit
    {lobby : Lobby κ τ ω}
    (forest : definition.graph.IsForest)
    (fits : definition.table.Fits definition.graph)
    (unfolds : lobby.scene.Unfolds definition opening base blank chronicle)
    (visit : Visit κ τ ω) :
    ∃ later, (lobby.apply visit).scene.Unfolds definition opening base blank later := by
  cases visit with
  | move move => exact unfolds.apply forest fits move
  | ask => exact ⟨chronicle, unfolds.of_sameButForCallers lobby.sameButForCallers_ask⟩
  | send ticket =>
      exact ⟨chronicle, unfolds.of_sameButForCallers (lobby.sameButForCallers_send ticket)⟩
  | place ticket =>
      exact ⟨chronicle, unfolds.of_sameButForCallers (lobby.sameButForCallers_place ticket)⟩

theorem visits
    (lobby : Lobby κ τ ω)
    (forest : definition.graph.IsForest)
    (fits : definition.table.Fits definition.graph)
    (unfolds : lobby.scene.Unfolds definition opening base blank chronicle)
    (visits : List (Visit κ τ ω)) :
    ∃ later, (lobby.perform visits).scene.Unfolds definition opening base blank later := by
  induction visits generalizing lobby chronicle with
  | nil => exact ⟨chronicle, unfolds⟩
  | cons visit visits inductionHypothesis =>
      obtain ⟨between, unfolds⟩ := unfolds.visit forest fits visit
      exact inductionHypothesis _ unfolds

/-- A worker that has closed its queue has been told to stop. -/
theorem told_of_closed
    (unfolds : scene.Unfolds definition opening base blank chronicle)
    (closed : scene.position = .closed) :
    scene.told = true := by
  obtain ⟨machine, hand, told⟩ := scene
  have stage := unfolds.stage
  simp only [position] at closed
  generalize machine.worker = worker at stage closed
  cases stage with
  | opening _ => contradiction
  | idle _ _ => contradiction
  | event _ _ _ => contradiction
  | closing _ _ _ => rfl
  | ended _ _ _ => rfl

/-- A running machine has not closed its queue. -/
theorem position_ne_closed
    (unfolds : scene.Unfolds definition opening base blank chronicle)
    (running : scene.machine.session.phase = .running) :
    scene.position ≠ .closed := by
  intro closed
  have stopped := unfolds.told_stopped (unfolds.told_of_closed closed)
  rw [running] at stopped
  contradiction

/-- The events that have been processed to their ends are those of the accounts. -/
theorem completed_eq
    (unfolds : scene.Unfolds definition opening base blank chronicle) :
    scene.completed = chronicle.accounts.map Account.event := by
  have begun_eq := unfolds.begun_eq
  obtain ⟨machine, hand, told⟩ := scene
  have stage := unfolds.stage
  simp only [completed, position]
  generalize machine.worker = worker at stage
  cases stage with
  | opening _ => simpa [underway] using begun_eq
  | idle _ _ => simpa [underway] using begun_eq
  | event _ _ _ => simp [begun_eq, underway]
  | closing _ _ _ => simpa [underway] using begun_eq
  | ended _ _ _ => simpa [underway] using begun_eq

end Unfolds
end Scene
end Statechart
