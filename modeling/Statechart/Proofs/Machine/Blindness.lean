import Statechart.Proofs.Machine.Life
import Statechart.Proofs.Machine.Parts

/-!
# What the journal does not decide

The journal is written and never read. Whatever it tells of the past, a worker makes the same
requests and gets the same answers, and its machine comes to the same in everything but the
journal.
-/

namespace Statechart

variable {κ τ ω α β : Type}

/-- An event is queued or turned down whatever the journal tells of the past. -/
theorem Session.fire_withPast
    (session : Session κ τ ω)
    (past : List (Activity κ τ))
    (event : Event τ) :
    (session.withPast past).fire event =
      ((session.fire event).1, (session.fire event).2.withPast past) := by
  obtain ⟨phase, queue, number, published, clock, world, journal⟩ := session
  cases phase with
  | created => rfl
  | stopped => rfl
  | running =>
      simp only [fire, withPast]
      cases queue.push? (.event (event.numbered (number + 1))) with
      | some larger => rfl
      | none => rfl

/-! ## Blind work -/

namespace Work

/-- What the journal tells of the past does not matter to the work. -/
def IsBlind : Work κ τ ω α → Prop
  | .done _ => True
  | .note _ _ next => next.IsBlind
  | .publish _ next => next.IsBlind
  | .fire _ next => ∀ answer, (next answer).IsBlind
  | .read next =>
      (∀ session past, next (session.withPast past) = next session) ∧
        ∀ session, (next session).IsBlind
  | .retain _ next => next.IsBlind

/-- Blind work stays blind after a request. -/
theorem IsBlind.step
    {work : Work κ τ ω α}
    (isBlind : work.IsBlind)
    (session : Session κ τ ω) :
    (work.step session).1.IsBlind := by
  cases work with
  | done result => trivial
  | note activity isRemark next => exact isBlind
  | publish snapshot next => exact isBlind
  | fire event next => exact isBlind _
  | read next => exact isBlind.2 session
  | retain world next => exact isBlind

/-- Blind work makes its next request whatever the journal tells of the past. -/
theorem IsBlind.step_withPast
    {work : Work κ τ ω α}
    (isBlind : work.IsBlind)
    (session : Session κ τ ω)
    (past : List (Activity κ τ)) :
    work.step (session.withPast past) =
      ((work.step session).1, (work.step session).2.withPast past) := by
  cases work with
  | done result => rfl
  | note activity isRemark next => rfl
  | publish snapshot next => rfl
  | fire event next => rw [Work.step, session.fire_withPast, Work.step]
  | read next => rw [Work.step, isBlind.1, Work.step]
  | retain world next => rfl

/-- Plain work that goes on with blind work is blind. -/
theorem IsPlain.isBlind_bind
    {work : Work κ τ ω α}
    {continuation : α → Work κ τ ω β}
    (isPlain : work.IsPlain)
    (rest : ∀ result, (continuation result).IsBlind) :
    (work.bind continuation).IsBlind := by
  induction isPlain with
  | done result => exact rest result
  | note _ _ inductionHypothesis => exact inductionHypothesis
  | fire _ inductionHypothesis => exact inductionHypothesis
  | look _ inductionHypothesis => exact ⟨fun _ _ => rfl, fun _ => inductionHypothesis _⟩
  | read blind _ inductionHypothesis =>
      exact ⟨fun session past => congrArg (Work.bind · continuation) (blind session past),
        inductionHypothesis⟩
  | retain _ inductionHypothesis => exact inductionHypothesis

/-! ## The tasks -/

section Tasks

variable (definition : Definition κ τ ω)

theorem isBlind_thenPublish
    {work : Work κ τ ω (Worker κ)}
    (isPlain : work.IsPlain) :
    (thenPublish definition work).IsBlind :=
  isPlain.isBlind_bind fun _ => trivial

theorem isBlind_report
    (context : Context κ τ)
    (closing : Option (Notification κ τ))
    (worker : Worker κ) :
    (report definition context closing worker).IsBlind := by
  refine (isPlain_reportErrors definition context).isBlind_bind fun _ => ?_
  cases closing with
  | none => trivial
  | some notification => exact (isPlain_notify _ _).isBlind_bind fun _ => trivial

/-- A worker that counts an event reads the clock alone. -/
theorem isBlind_finishEvent_bind
    (worker : Worker κ)
    {continuation : Worker κ → Work κ τ ω α}
    (rest : ∀ counted, (continuation counted).IsBlind) :
    ((finishEvent definition worker).bind continuation).IsBlind :=
  ⟨fun _ _ => rfl, fun _ => rest _⟩

theorem isBlind_conclude
    [Inspect τ]
    (worker : Worker κ)
    (context : Context κ τ)
    (outcome : Option StepError × Configuration) :
    (conclude definition worker context outcome).IsBlind := by
  obtain ⟨failure, configuration⟩ := outcome
  cases failure with
  | some error => exact isBlind_finishEvent_bind _ _ fun _ => isBlind_report ..
  | none =>
      exact ⟨fun _ _ => rfl, fun _ => isBlind_finishEvent_bind _ _ fun _ => isBlind_report ..⟩

variable [DecidableEq κ] [StateKey κ]

theorem isBlind_shutdown (worker : Worker κ) : (shutdown definition worker).IsBlind := by
  rw [shutdown_eq, thenPublish, bind_assoc]
  exact (isPlain_leaveAll _ _ _).isBlind_bind fun _ => trivial

variable [DecidableEq τ] [Inspect τ]

theorem isBlind_process (worker : Worker κ) (event : Event τ) :
    (process definition worker event).IsBlind := by
  rw [process_eq]
  refine (isPlain_notify _ _).isBlind_bind fun _ =>
    (isPlain_choose _ _ _).isBlind_bind fun selected => ?_
  obtain ⟨chosen, faults⟩ := selected
  cases chosen with
  | none => exact isBlind_finishEvent_bind _ _ fun _ => isBlind_report ..
  | some entry => exact (isPlain_execute _ _ _ _).isBlind_bind fun _ => isBlind_conclude ..

end Tasks
end Work

/-! ## Machines -/

namespace Machine

/-- A machine with a journal that goes back further. -/
def withPast (machine : Machine κ τ ω) (past : List (Activity κ τ)) : Machine κ τ ω :=
  { machine with session := machine.session.withPast past }

variable (machine : Machine κ τ ω) (past : List (Activity κ τ))

@[simp] theorem definition_withPast :
    (machine.withPast past).definition = machine.definition := rfl

@[simp] theorem phase_withPast :
    (machine.withPast past).session.phase = machine.session.phase := rfl

theorem noting_withPast (remarks : List (Activity κ τ)) :
    (machine.withPast past).noting remarks = (machine.noting remarks).withPast past := by
  rw [noting, withPast, Session.withPast, noting, withPast, Session.withPast]
  simp only [List.append_assoc]

theorem comparingName_withPast (checkpoint : Checkpoint κ) :
    (machine.withPast past).comparingName checkpoint =
      (machine.comparingName checkpoint).withPast past := by
  unfold comparingName
  split
  · rw [if_pos (by assumption)]
  · rw [if_neg (by assumption)]
    rfl

theorem close_withPast : (machine.withPast past).close = machine.close.withPast past := by
  unfold close
  simp only
  split
  · rw [if_pos (by assumption)]
    rfl
  · rw [if_neg (by assumption)]
    rfl

theorem fire_withPast (event : Event τ) :
    (machine.withPast past).fire event =
      ((machine.fire event).1, (machine.fire event).2.withPast past) := by
  rw [fire, withPast, Session.fire_withPast]
  rfl

theorem settle_withPast :
    (machine.withPast past).settle = (machine.settle.1, machine.settle.2.withPast past) := by
  rw [settle, settle, phase_withPast]
  cases machine.session.phase <;> rfl

theorem requestStop_withPast :
    (machine.withPast past).requestStop =
      (machine.requestStop.1, machine.requestStop.2.withPast past) := by
  rw [requestStop, requestStop, phase_withPast]
  cases machine.session.phase <;> rfl

theorem launch_withPast
    (hasRuntime : Bool)
    (number : UInt64)
    (first : Session κ τ ω → Worker κ × Session κ τ ω) :
    ((machine.withPast past).launch hasRuntime number first).1 =
      (machine.launch hasRuntime number first).1 := by
  obtain ⟨definition, ⟨phase, queue, number, published, clock, world, journal⟩, worker, tickets,
    answers⟩ := machine
  cases phase with
  | created => cases hasRuntime <;> rfl
  | running => rfl
  | stopped => rfl

variable [DecidableEq κ] [StateKey κ]

/-- A caller is answered whatever the journal tells of the past. -/
theorem reply?_withPast (operation : Operation κ τ ω) :
    (machine.withPast past).reply? operation = machine.reply? operation := by
  cases operation with
  | start hasRuntime => exact congrArg some (machine.launch_withPast past ..)
  | startFrom checkpoint hasRuntime =>
      refine congrArg some ?_
      rw [startFrom_eq, startFrom_eq, definition_withPast]
      cases configurationOf machine.definition.graph checkpoint with
      | error problem => rfl
      | ok configuration =>
          simp only
          rw [comparingName_withPast, launch_withPast]
  | fire event => rw [reply?, fire_withPast, reply?]
  | settle => rw [reply?, settle_withPast, reply?]
  | requestStop => rw [reply?, requestStop_withPast, reply?]
  | _ => rfl

/-- What is refused is refused whatever the journal tells of the past. -/
theorem refuses_withPast_iff {operation : Operation κ τ ω} {error : MachineError} :
    (machine.withPast past).Refuses operation error ↔ machine.Refuses operation error := by
  rw [← reply?_eq_error_iff, ← reply?_eq_error_iff, reply?_withPast]

end Machine

/-! ## Scenes -/

namespace Scene

/-- A scene with a journal that goes back further. -/
def withPast (scene : Scene κ τ ω) (past : List (Activity κ τ)) : Scene κ τ ω :=
  { scene with machine := scene.machine.withPast past }

/-- What the journal tells of the past does not matter to the work in hand. -/
def IsBlind (scene : Scene κ τ ω) : Prop :=
  ∀ task work, scene.hand = some (task, work) → work.IsBlind

/-- Where nothing is in hand there is nothing to see. -/
theorem isBlind_of_idle {scene : Scene κ τ ω} (idle : scene.hand = none) : scene.IsBlind := by
  intro _ _ inHand
  rw [idle] at inHand
  contradiction

theorem isBlind_some
    {machine : Machine κ τ ω}
    {task : Task τ}
    {work : Work κ τ ω (Worker κ)}
    {told : Bool}
    (isBlind : work.IsBlind) :
    (⟨machine, some (task, work), told⟩ : Scene κ τ ω).IsBlind := by
  rintro _ _ ⟨⟩
  exact isBlind

variable
  [DecidableEq κ]
  [StateKey κ]
  [DecidableEq τ]
  [Inspect τ]
  (scene : Scene κ τ ω)
  (past : List (Activity κ τ))

omit [DecidableEq τ] [Inspect τ] in
theorem reply?_withPast (move : Move κ τ ω) :
    (scene.withPast past).reply? move = scene.reply? move := by
  cases move with
  | tell => rfl
  | operation operation => exact scene.machine.reply?_withPast past operation

omit [DecidableEq τ] [Inspect τ] in
theorem beginning?_withPast (move : Move κ τ ω) :
    (scene.withPast past).beginning? move = scene.beginning? move := by
  have answer (operation : Operation κ τ ω) := scene.machine.reply?_withPast past operation
  cases move with
  | tell => rfl
  | operation operation =>
      cases operation with
      | start hasRuntime =>
          rw [beginning?, withPast, Option.some.inj (answer (.start hasRuntime))]
          rfl
      | startFrom checkpoint hasRuntime =>
          rw [beginning?, withPast, Option.some.inj (answer (.startFrom checkpoint hasRuntime))]
          rfl
      | _ => rfl

omit [DecidableEq τ] [Inspect τ] in
theorem begin_withPast (machine : Machine κ τ ω) (beginning : Beginning κ) :
    begin (machine.withPast past) beginning =
      (begin machine beginning).map fun first => first.withPast past := by
  cases beginning with
  | start => rfl
  | restore checkpoint =>
      rw [begin, begin, machine.comparingName_withPast, machine.definition_withPast]
      cases Machine.configurationOf machine.definition.graph checkpoint <;> rfl

theorem takeUp_withPast : (scene.withPast past).takeUp = scene.takeUp.withPast past := by
  obtain ⟨⟨definition, session, worker, tickets, answers⟩, hand, told⟩ := scene
  cases worker with
  | none => rfl
  | some worker =>
      cases told with
      | true =>
          simp only [takeUp, withPast, if_true]
          rw [Machine.close_withPast]
          rfl
      | false =>
          simp only [takeUp, withPast, Machine.withPast, Session.withPast, Bool.false_eq_true,
            if_false]
          cases session.queue.pop? with
          | none => rfl
          | some taken =>
              obtain ⟨command, queue⟩ := taken
              cases command <;> rfl

variable {scene}

theorem IsBlind.advance_withPast (isBlind : scene.IsBlind) :
    (scene.withPast past).advance = scene.advance.withPast past := by
  obtain ⟨machine, hand, told⟩ := scene
  cases hand with
  | none => exact takeUp_withPast _ _
  | some hand =>
      obtain ⟨task, work⟩ := hand
      have blind := isBlind task work rfl
      cases work with
      | done worker => rfl
      | _ =>
          simp only [advance, withPast, Machine.withPast]
          rw [blind.step_withPast]

omit [DecidableEq κ] [StateKey κ] [DecidableEq τ] [Inspect τ] in
theorem noting_withPast (remarks : List (Activity κ τ)) :
    (scene.withPast past).noting remarks = (scene.noting remarks).withPast past := by
  rw [noting, withPast, Machine.noting_withPast]
  rfl

/-- What happens comes to the same, whatever the journal tells of the past. -/
theorem IsBlind.live_withPast (isBlind : scene.IsBlind) (move : Move κ τ ω) :
    (scene.withPast past).live move = (scene.live move).withPast past := by
  cases begins : scene.beginning? move with
  | some beginning =>
      obtain ⟨_, accepted, _⟩ := of_beginning? begins
      have acceptedAgain : begin (scene.withPast past).machine beginning =
          .ok ((scene.live move).withPast past) := by
        rw [withPast, begin_withPast, accepted]
        rfl
      rw [Scene.live, beginning?_withPast, begins]
      simp only [acceptedAgain]
      rfl
  | none =>
      have refused {operation : Operation κ τ ω} {error : MachineError}
          (refuses : scene.machine.Refuses operation error) :
          (scene.withPast past).live (.operation operation) =
            (scene.live (.operation operation)).withPast past := by
        have remarks_eq : (scene.withPast past).machine.remarks operation =
            scene.machine.remarks operation := by
          cases operation <;> rfl
        rw [live_of_refuses refuses,
          live_of_refuses ((scene.machine.refuses_withPast_iff past).mpr refuses), remarks_eq,
          noting_withPast]
      have live_eq : scene.live move = scene.apply move := by rw [Scene.live, begins]
      have liveAgain_eq : (scene.withPast past).live move = (scene.withPast past).apply move := by
        rw [Scene.live, beginning?_withPast, begins]
      cases move with
      | tell =>
          rw [live_eq, liveAgain_eq]
          rfl
      | operation operation =>
          cases operation with
          | start hasRuntime =>
              obtain ⟨_, refuses⟩ := exists_refuses_start begins
              exact refused refuses
          | startFrom checkpoint hasRuntime =>
              obtain ⟨_, refuses⟩ := exists_refuses_startFrom begins
              exact refused refuses
          | fire event =>
              rw [live_eq, liveAgain_eq]
              simp only [apply, Machine.apply, withPast, Machine.fire_withPast]
          | settle =>
              rw [live_eq, liveAgain_eq]
              simp only [apply, Machine.apply, withPast, Machine.settle_withPast]
          | requestStop =>
              rw [live_eq, liveAgain_eq]
              simp only [apply, Machine.apply, withPast, Machine.requestStop_withPast]
          | advance =>
              rw [live_eq, liveAgain_eq]
              exact isBlind.advance_withPast past
          | deposit =>
              rw [live_eq, liveAgain_eq]
              rfl
          | change world =>
              rw [live_eq, liveAgain_eq]
              rfl
          | pass clock =>
              rw [live_eq, liveAgain_eq]
              rfl

theorem IsBlind.advance (isBlind : scene.IsBlind) : scene.advance.IsBlind := by
  unfold Scene.advance
  split
  · unfold takeUp
    extract_lets machine
    split
    · exact isBlind
    · split
      · exact isBlind_some (Work.isBlind_shutdown _ _)
      · split
        · exact isBlind_some (Work.isBlind_process _ _ _)
        · exact isBlind
        · exact isBlind
  · exact isBlind_of_idle rfl
  · rename_i task work _ inHand
    exact isBlind_some ((isBlind task work inHand).step _)

/-- The work in hand stays blind. -/
theorem IsBlind.live (isBlind : scene.IsBlind) (move : Move κ τ ω) : (scene.live move).IsBlind := by
  cases begins : scene.beginning? move with
  | some beginning =>
      obtain ⟨_, accepted, _⟩ := of_beginning? begins
      generalize scene.live move = first at accepted
      cases beginning with
      | start =>
          cases accepted
          exact isBlind_some (Work.isBlind_thenPublish _ (Work.isPlain_enterInitial _ _))
      | restore checkpoint =>
          rw [begin] at accepted
          split at accepted
          · contradiction
          · cases accepted
            exact isBlind_some (Work.isBlind_thenPublish _ (.note rfl (.done _)))
  | none =>
      have live_eq : scene.live move = scene.apply move := by rw [Scene.live, begins]
      rw [live_eq]
      cases move with
      | tell => exact isBlind
      | operation operation =>
          by_cases byWorker : operation = .advance
          · subst byWorker
            exact isBlind.advance
          · rw [scene.apply_of_ne_advance byWorker]
            exact isBlind

theorem IsBlind.liveThrough (isBlind : scene.IsBlind) (moves : List (Move κ τ ω)) :
    (scene.liveThrough moves).IsBlind := by
  induction moves generalizing scene with
  | nil => exact isBlind
  | cons move moves inductionHypothesis => exact inductionHypothesis (isBlind.live move)

/-- All that happens comes to the same. -/
theorem IsBlind.liveThrough_withPast (isBlind : scene.IsBlind) (moves : List (Move κ τ ω)) :
    (scene.withPast past).liveThrough moves = (scene.liveThrough moves).withPast past := by
  induction moves generalizing scene with
  | nil => rfl
  | cons move moves inductionHypothesis =>
      rw [liveThrough_cons, isBlind.live_withPast, inductionHypothesis (isBlind.live move),
        liveThrough_cons]

/-- All callers are answered the same. -/
theorem IsBlind.replies_withPast (isBlind : scene.IsBlind) (moves : List (Move κ τ ω)) :
    (scene.withPast past).replies moves = scene.replies moves := by
  induction moves generalizing scene with
  | nil => rfl
  | cons move moves inductionHypothesis =>
      rw [replies, reply?_withPast, isBlind.live_withPast,
        inductionHypothesis (isBlind.live move), replies]

end Scene
end Statechart
