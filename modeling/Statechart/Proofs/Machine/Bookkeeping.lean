import Statechart.Proofs.Machine.Register

/-!
# Keeping the register

Whatever happens to a machine and to the callers who wait, in whatever order, the register
changes by its own steps. Fired events are put at the end of the queue. When the worker takes
up its next task it begins an event, comes to a marker or closes the queue.
-/

namespace Statechart

variable {κ τ ω α : Type}

/-! ## Steps of the worker -/

/-- What is fired is put at the end of the queue, or nothing is. -/
theorem Session.fire_receives (session : Session κ τ ω) (event : Event τ) :
    ∃ events, (session.fire event).2.queue = session.queue.receive events ∧
      (session.fire event).2.accepted = session.accepted ++ events := by
  rcases session.fire_outcome event with ⟨_, fired⟩ | ⟨_, _, fired⟩ | ⟨_, _, queue, pushed, fired⟩
  · rw [fired]
    exact ⟨[], session.queue.receive_nil.symm, (List.append_nil _).symm⟩
  · rw [fired]
    exact ⟨[], session.queue.receive_nil.symm, session.accepted_note _⟩
  · rw [fired]
    refine ⟨[event.numbered (session.number + 1)], ?_, accepted_note _ _⟩
    simp only [Queue.push?] at pushed
    split at pushed
    · contradiction
    · exact (Option.some.inj pushed).symm

/-- One request of a worker puts at most some events at the end of the queue. -/
theorem Work.step_receives (work : Work κ τ ω α) (session : Session κ τ ω) :
    ∃ events, (work.step session).2.queue = session.queue.receive events ∧
      (work.step session).2.accepted = session.accepted ++ events := by
  have nothing : session.queue = session.queue.receive [] := session.queue.receive_nil.symm
  cases work with
  | done result => exact ⟨[], nothing, (List.append_nil _).symm⟩
  | note activity isRemark next =>
      refine ⟨[], nothing, (session.accepted_note activity).trans ?_⟩
      cases isRemark <;> rfl
  | publish snapshot next => exact ⟨[], nothing, session.accepted_note (.published snapshot)⟩
  | fire event next => exact session.fire_receives event
  | read next => exact ⟨[], nothing, (List.append_nil _).symm⟩
  | retain world next => exact ⟨[], nothing, (List.append_nil _).symm⟩

/-! ## Registers of lobbies -/

namespace Lobby

/-- What matters to callers in a lobby. -/
def register (lobby : Lobby κ τ ω) : Register τ where
  queue := lobby.queue
  asking := lobby.asking
  tickets := lobby.tickets
  answers := lobby.answers
  accepted := lobby.scene.machine.session.accepted
  begun := lobby.scene.machine.session.begun
  completed := lobby.scene.completed
  position := lobby.scene.position
  told := lobby.scene.told

theorem becomes_ask (lobby : Lobby κ τ ω) : lobby.register.Becomes lobby.ask.2.register := by
  unfold ask
  split
  · exact .refl
  · exact .refl
  · exact .single .ask

theorem becomes_send (lobby : Lobby κ τ ω) (ticket : Nat) :
    lobby.register.Becomes (lobby.send ticket).register := by
  unfold send
  split
  · rename_i asks
    split
    · rename_i closed
      exact .single (.refuse asks closed)
    · rename_i goesOn
      exact .single (.send asks goesOn)
  · exact .refl

theorem becomes_place (lobby : Lobby κ τ ω) (ticket : Nat) :
    lobby.register.Becomes (lobby.place ticket).register :=
  .single (.place ticket)

/-- What happens without regard to the callers at most brings some events. -/
theorem becomes_of_receives
    {lobby after : Lobby κ τ ω}
    (asking_eq : after.asking = lobby.asking)
    (tickets_eq : after.tickets = lobby.tickets)
    (answers_eq : after.answers = lobby.answers)
    (position_eq : after.scene.position = lobby.scene.position)
    (told_eq : after.scene.told = lobby.scene.told)
    (begun_eq : after.scene.machine.session.begun = lobby.scene.machine.session.begun)
    (receives : ∃ events, after.queue = lobby.queue.receive events ∧
      after.scene.machine.session.accepted =
        lobby.scene.machine.session.accepted ++ events) :
    lobby.register.Becomes after.register := by
  obtain ⟨events, queue_eq, accepted_eq⟩ := receives
  have completed_eq : after.scene.completed = lobby.scene.completed := by
    simp only [Scene.completed, position_eq, begun_eq]
  have register_eq : after.register =
      { lobby.register with
        queue := lobby.register.queue.receive events
        accepted := lobby.register.accepted ++ events } :=
    Register.ext queue_eq asking_eq tickets_eq answers_eq accepted_eq begun_eq completed_eq
      position_eq told_eq
  rw [register_eq]
  exact .single (.receive events)

theorem becomes_of_next
    {lobby after : Lobby κ τ ω}
    {register : Register τ}
    (next : lobby.register.Next register)
    (register_eq : after.register = register) :
    lobby.register.Becomes after.register :=
  register_eq ▸ .single next

variable
  [DecidableEq κ]
  [StateKey κ]
  [DecidableEq τ]
  [Inspect τ]
  {definition : Definition κ τ ω}
  {opening : Work κ τ ω (Worker κ)}
  {base : UInt64}
  {blank : Snapshot κ}
  {lobby : Lobby κ τ ω}
  {chronicle : Chronicle κ τ ω}

/-- A worker that takes up its next task begins an event, comes to a marker or closes the
queue. -/
theorem becomes_takeUp (idle : lobby.scene.hand = none) :
    lobby.register.Becomes { lobby with scene := lobby.scene.takeUp }.register := by
  rw [Scene.takeUp]
  split
  · exact .refl
  · rename_i worker isWorker
    have isIdle : lobby.scene.position = .idle := by
      simp only [Scene.position, idle, isWorker]
    have completed_eq : lobby.scene.completed = lobby.scene.machine.session.begun := by
      rw [Scene.completed, isIdle]
    split
    · rename_i isTold
      obtain ⟨_, _, _, accepted_eq, begun_eq, _⟩ := lobby.scene.machine.close_keeps
      have queue_eq : lobby.scene.machine.close.session.queue =
          Queue.empty lobby.queue.capacity := by
        simp only [Machine.close]
        split <;> rfl
      exact becomes_of_next (.close isIdle isTold) (Register.ext queue_eq rfl rfl rfl
        accepted_eq begun_eq (begun_eq.trans completed_eq.symm) rfl rfl)
    · rename_i working
      split
      · rename_i event rest popped
        let session : Session κ τ ω := { lobby.scene.machine.session with queue := rest }
        have accepted_eq : (session.note (.began event)).accepted =
            lobby.scene.machine.session.accepted :=
          (session.accepted_note _).trans (List.append_nil _)
        have begun_eq : (session.note (.began event)).begun =
            lobby.scene.machine.session.begun ++ [event] :=
          session.begun_note _
        have stillCompleted : (session.note (.began event)).begun.dropLast =
            lobby.scene.completed := by
          rw [begun_eq, List.dropLast_concat, completed_eq]
        exact becomes_of_next (.begin isIdle popped)
          (Register.ext rfl rfl rfl rfl accepted_eq begun_eq stillCompleted rfl rfl)
      · rename_i ticket rest popped
        exact .single (.answer isIdle (Bool.eq_false_iff.mpr working) popped)
      · exact .refl

/-- A worker that makes a request or lays down a task. -/
theorem becomes_advance :
    lobby.register.Becomes { lobby with scene := lobby.scene.advance }.register := by
  rw [Scene.advance]
  split
  · rename_i idle
    exact becomes_takeUp idle
  · rename_i task worker done
    cases task with
    | opening =>
        have position_eq : lobby.scene.position = .opening := by
          simp only [Scene.position, done]
        exact .single (.rest (by simp [register, position_eq]))
    | event event =>
        have position_eq : lobby.scene.position = .busy := by
          simp only [Scene.position, done]
        exact .single (.rest (by simp [register, position_eq]))
    | closing =>
        have position_eq : lobby.scene.position = .closed := by
          simp only [Scene.position, done]
        exact becomes_of_receives rfl rfl rfl position_eq.symm rfl rfl
          ⟨[], (Queue.receive_nil _).symm, (List.append_nil _).symm⟩
  · rename_i task work _ busy
    obtain ⟨_, _, proceeds⟩ := work.leads_step lobby.scene.machine.session
    refine becomes_of_receives rfl rfl rfl ?_ rfl proceeds.begun_eq (work.step_receives _)
    cases task <;> simp only [Scene.position, busy]

omit [DecidableEq κ] [StateKey κ] [DecidableEq τ] [Inspect τ] in
/-- A caller who has asked holds a number that has been given out. -/
theorem tickets_not_mem_asking (kept : lobby.register.IsKept) : lobby.tickets ∉ lobby.asking := by
  intro asks
  have listed : lobby.tickets ∈ List.range lobby.tickets :=
    kept.callers_perm.mem_iff.mp (List.mem_append_left _ (List.mem_append_right _ asks))
  simp at listed

/-- What others than the worker do to the machine. -/
theorem becomes_operation
    (unfolds : lobby.scene.Unfolds definition opening base blank chronicle)
    (kept : lobby.register.IsKept)
    {operation : Operation κ τ ω}
    (byCaller : operation ≠ .advance) :
    lobby.register.Becomes
      { lobby with
        scene :=
          { lobby.scene with machine := lobby.scene.machine.apply operation } }.register := by
  have nothing : ∃ events, lobby.queue = lobby.queue.receive events ∧
      lobby.scene.machine.session.accepted = lobby.scene.machine.session.accepted ++ events :=
    ⟨[], (Queue.receive_nil _).symm, (List.append_nil _).symm⟩
  cases operation with
  | advance => contradiction
  | start hasRuntime =>
      rw [Machine.apply, Machine.start, Machine.launch_of_begun unfolds.begun]
      exact .refl
  | startFrom checkpoint hasRuntime =>
      rw [Machine.apply, Machine.startFrom_of_begun unfolds.begun]
      rcases lobby.scene.machine.comparingName_cases checkpoint with same | noted
      · rw [same]
        exact .refl
      · rw [noted]
        exact becomes_of_receives rfl rfl rfl rfl rfl
          ((Session.begun_note _ _).trans (List.append_nil _))
          ⟨[], (Queue.receive_nil _).symm, Session.accepted_note _ _⟩
  | fire event =>
      exact becomes_of_receives rfl rfl rfl rfl rfl
        (lobby.scene.machine.session.proceeds_fire event).begun_eq
        (lobby.scene.machine.session.fire_receives event)
  | settle =>
      by_cases running : lobby.scene.machine.session.phase = .running
      · rw [Machine.apply, ← (send_ask running (unfolds.position_ne_closed running)
          (tickets_not_mem_asking kept)).2]
        exact lobby.becomes_ask.trans (becomes_send _ _)
      · have refused : lobby.scene.machine.settle.2 = lobby.scene.machine := by
          rw [Machine.settle]
          split
          · rfl
          · rfl
          · contradiction
        rw [Machine.apply, refused]
        exact .refl
  | requestStop =>
      rw [Machine.apply, Machine.requestStop]
      split
      · exact .refl
      · exact .refl
      · exact becomes_of_receives rfl rfl rfl rfl rfl rfl nothing
  | deposit =>
      have deposits := lobby.register.becomes_foldl_place lobby.queue.reserved
      rw [show lobby.register.queue = lobby.queue from rfl, Queue.foldl_place_reserved] at deposits
      exact deposits
  | change world => exact becomes_of_receives rfl rfl rfl rfl rfl rfl nothing
  | pass clock => exact becomes_of_receives rfl rfl rfl rfl rfl rfl nothing

/-- Whatever happens, the register changes step by step. -/
theorem becomes_apply
    (unfolds : lobby.scene.Unfolds definition opening base blank chronicle)
    (kept : lobby.register.IsKept)
    (visit : Visit κ τ ω) :
    lobby.register.Becomes (lobby.apply visit).register := by
  cases visit with
  | move move =>
      cases move with
      | operation operation =>
          by_cases byWorker : operation = .advance
          · subst byWorker
            exact becomes_advance
          · rw [apply, Scene.apply_of_ne_advance _ byWorker]
            exact becomes_operation unfolds kept byWorker
      | tell =>
          cases stopped : lobby.scene.machine.session.phase == .stopped with
          | false =>
              have told_eq : (lobby.apply (.move .tell)).scene.told = lobby.scene.told := by
                simp only [apply, Scene.apply, stopped, Bool.or_false]
              exact becomes_of_receives rfl rfl rfl rfl told_eq rfl
                ⟨[], (Queue.receive_nil _).symm, (List.append_nil _).symm⟩
          | true =>
              have told_eq : (lobby.apply (.move .tell)).scene.told = true := by
                simp only [apply, Scene.apply, stopped, Bool.or_true]
              exact becomes_of_next .tell
                (Register.ext rfl rfl rfl rfl rfl rfl rfl rfl told_eq)
  | ask => exact lobby.becomes_ask
  | send ticket => exact lobby.becomes_send ticket
  | place ticket => exact lobby.becomes_place ticket

theorem becomes_perform
    (forest : definition.graph.IsForest)
    (fits : definition.table.Fits definition.graph)
    (unfolds : lobby.scene.Unfolds definition opening base blank chronicle)
    (kept : lobby.register.IsKept)
    (visits : List (Visit κ τ ω)) :
    lobby.register.Becomes (lobby.perform visits).register := by
  induction visits generalizing lobby chronicle with
  | nil => exact .refl
  | cons visit visits inductionHypothesis =>
      have first := becomes_apply unfolds kept visit
      obtain ⟨between, unfolds⟩ := unfolds.visit forest fits visit
      exact first.trans (inductionHypothesis unfolds (kept.becomes first))

end Lobby
end Statechart
