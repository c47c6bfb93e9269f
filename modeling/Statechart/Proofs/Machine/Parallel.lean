import Statechart.Proofs.Machine.Influence

/-!
# Lives that match

Two machines match whose workers may be interrupted at any time. Whatever happens to one of them
can happen to the other, with the same calls and the same answers; only the worker may need more
or fewer requests in between.
-/

namespace Statechart

variable
  {κ τ ω σ : Type}
  [DecidableEq κ]
  [StateKey κ]
  [DecidableEq τ]
  [Inspect τ]
  {comparison : Comparison ω σ}

/-- Callers leave the client alone unless they set a machine running or change the client's
state. -/
theorem Scene.world_apply
    {scene : Scene κ τ ω}
    {operation : Operation κ τ ω}
    (noBeginning : scene.beginning? (.operation operation) = none)
    (byCaller : operation ≠ .advance)
    (noChange : ∀ world, operation ≠ .change world) :
    (scene.machine.apply operation).session.world = scene.machine.session.world := by
  have refused {error : MachineError} (refuses : scene.machine.Refuses operation error) :
      (scene.machine.apply operation).session.world = scene.machine.session.world := by
    rw [refuses.apply_eq]
    rfl
  cases operation with
  | start hasRuntime => exact refused (exists_refuses_start noBeginning).choose_spec
  | startFrom checkpoint hasRuntime =>
      exact refused (exists_refuses_startFrom noBeginning).choose_spec
  | fire event => exact scene.machine.session.world_fire event
  | settle =>
      simp only [Machine.apply, Machine.settle]
      split <;> rfl
  | requestStop =>
      simp only [Machine.apply, Machine.requestStop]
      split <;> rfl
  | advance => contradiction
  | deposit => rfl
  | change world => exact absurd rfl (noChange world)
  | pass clock => rfl

namespace Scene

variable {scene other : Scene κ τ ω}

namespace Matches

/-- Both machines are set running. -/
theorem launched
    {machine otherMachine : Machine κ τ ω}
    (machines : machine.Matches comparison otherMachine)
    (number : UInt64)
    {opening otherOpening : Work κ τ ω (Worker κ)}
    (openings : ∀ sight, opening.Matches comparison Eq sight otherOpening) :
    (Scene.launched machine number opening).Matches comparison
      (Scene.launched otherMachine number otherOpening) where
  machine := machines.withSession
    { machines.session with phase_eq := rfl, number_eq := rfl }
  hand := .busy (machines.definition.thenPublish (openings _))
  told_eq := rfl

/-- Both machines begin, or neither of them can. -/
theorem begin
    {machine otherMachine : Machine κ τ ω}
    (machines : machine.Matches comparison otherMachine)
    {beginning : Beginning κ}
    {first : Scene κ τ ω}
    (begins : Scene.begin machine beginning = .ok first) :
    ∃ otherFirst, Scene.begin otherMachine beginning = .ok otherFirst ∧
      first.Matches comparison otherFirst := by
  cases beginning with
  | start =>
      cases begins
      refine ⟨_, rfl, launched machines 0 fun sight => ?_⟩
      rw [machines.freshWorker_eq]
      exact machines.definition.opens sight _
  | restore checkpoint =>
      rw [Scene.begin] at begins
      rw [Scene.begin, ← machines.definition.graph_eq]
      split at begins
      · contradiction
      · cases begins
        exact ⟨_, rfl, launched (machines.comparingName checkpoint) _
          fun _ => .note rfl (.done rfl)⟩

theorem beginning?_eq
    (matching : scene.Matches comparison other)
    (move : Move κ τ ω) :
    scene.beginning? move = other.beginning? move := by
  cases move with
  | tell => rfl
  | operation operation =>
      have answer_eq := matching.machine.reply?_eq operation
      cases operation with
      | start hasRuntime => rw [beginning?, beginning?, Option.some.inj answer_eq]
      | startFrom checkpoint hasRuntime =>
          rw [beginning?, beginning?, Option.some.inj answer_eq]
      | _ => rfl

theorem reply?_eq
    (matching : scene.Matches comparison other)
    (move : Move κ τ ω) :
    scene.reply? move = other.reply? move := by
  cases move with
  | tell => rfl
  | operation operation => exact matching.machine.reply?_eq operation

/-- What callers do happens to both machines. While a worker has something in hand they do not
change the state of the client. -/
theorem live
    (matching : scene.Matches comparison other)
    {move : Move κ τ ω}
    (byCaller : move ≠ .operation .advance)
    (calm : ∀ world, move = .operation (.change world) → scene.hand = none) :
    (scene.live move).Matches comparison (other.live move) := by
  cases begins : scene.beginning? move with
  | some beginning =>
      have otherBegins := (matching.beginning?_eq move).symm.trans begins
      obtain ⟨otherFirst, accepted, firsts⟩ := begin matching.machine (of_beginning? begins).2.1
      rw [Except.ok.inj ((of_beginning? otherBegins).2.1.symm.trans accepted)]
      exact firsts
  | none =>
      have otherBegins := (matching.beginning?_eq move).symm.trans begins
      have live_eq : scene.live move = scene.apply move := by rw [Scene.live, begins]
      have otherLive_eq : other.live move = other.apply move := by rw [Scene.live, otherBegins]
      rw [live_eq, otherLive_eq]
      cases move with
      | tell =>
          refine { matching with told_eq := ?_ }
          simp only [apply, matching.told_eq, matching.machine.session.phase_eq]
      | operation operation =>
          have isCall : operation ≠ .advance := fun same => byCaller (same ▸ rfl)
          rw [apply_of_ne_advance _ isCall, apply_of_ne_advance _ isCall]
          refine ⟨matching.machine.apply operation, ?_, matching.told_eq⟩
          by_cases idle : scene.hand = none
          · simp only [idle, matching.hand_eq_none_iff.mp idle]
            exact .idle
          · have unchanged := world_apply begins isCall
              fun world same => idle (calm world (same ▸ rfl))
            simp only [unchanged]
            exact matching.hand

/-! ### Requests of workers -/

/-- To a request of one worker at a task the other one makes as many requests as it takes. -/
theorem exists_advance_of_work
    {sight : σ}
    {work otherWork : Work κ τ ω (Worker κ)}
    (works : work.Matches comparison Eq sight otherWork)
    {machine otherMachine : Machine κ τ ω}
    (machines : machine.Matches comparison otherMachine)
    (sees : comparison.seen machine.session.world = sight)
    (task : Task τ)
    (told : Bool) :
    ∃ count, (⟨machine, some (task, work), told⟩ : Scene κ τ ω).advance.Matches comparison
      ((⟨otherMachine, some (task, otherWork), told⟩ : Scene κ τ ω).perform
        (List.replicate count (.operation .advance))) := by
  -- Requests of the other worker that cannot be compared come first; the induction is on how the
  -- two pieces of work match.
  induction works generalizing machine otherMachine with
  | done same => exact ⟨1, { machines with worker_eq := congrArg task.remaining same }, .idle, rfl⟩
  | note same rest _ =>
      subst sees
      exact ⟨1, machines.withSession (machines.session.note same), .busy rest, rfl⟩
  | publish rest _ =>
      subst sees
      exact ⟨1, machines.withSession (machines.session.publish _), .busy rest, rfl⟩
  | @fire _ event next otherNext rest _ =>
      obtain ⟨answer_eq, fired⟩ := machines.session.fire event
      have nexts : (next (machine.session.fire event).1).Matches comparison Eq
          (comparison.seen (machine.session.fire event).2.world)
          (otherNext (otherMachine.session.fire event).1) := by
        rw [machine.session.world_fire, sees, answer_eq]
        exact rest _
      exact ⟨1, machines.withSession fired, .busy nexts, rfl⟩
  | read rest _ =>
      subst sees
      exact ⟨1, machines, .busy (rest _ _ machines.session rfl), rfl⟩
  | retain sameSight rest _ =>
      exact ⟨1, machines.withSession (machines.session.retain sameSight), .busy rest, rfl⟩
  | noteLeft nothing rest _ =>
      subst sees
      exact ⟨0, machines.withSession (machines.session.note_left nothing), .busy rest, rfl⟩
  | readLeft rest _ =>
      subst sees
      exact ⟨0, machines, .busy (rest _ rfl), rfl⟩
  | retainLeft sameSight rest _ =>
      subst sees
      exact ⟨0, machines.withSession (machines.session.retain_left sameSight),
        .busy (sameSight ▸ rest), rfl⟩
  | noteRight nothing _ inductionHypothesis =>
      obtain ⟨count, follows⟩ := inductionHypothesis
        (machines.withSession (machines.session.swap.note_left nothing).swap) sees
      exact ⟨count + 1, follows⟩
  | readRight _ inductionHypothesis =>
      obtain ⟨count, follows⟩ := inductionHypothesis otherMachine.session
        (machines.session.seen_eq.symm.trans sees) machines sees
      exact ⟨count + 1, follows⟩
  | retainRight sameSight _ inductionHypothesis =>
      have unchanged := sameSight.trans (sees.symm.trans machines.session.seen_eq)
      obtain ⟨count, follows⟩ := inductionHypothesis
        (machines.withSession (machines.session.swap.retain_left unchanged).swap) sees
      exact ⟨count + 1, follows⟩

/-- To a request of one worker the other one makes as many requests as it takes. -/
theorem exists_advance (matching : scene.Matches comparison other) :
    ∃ count, scene.advance.Matches comparison
      (other.perform (List.replicate count (.operation .advance))) := by
  have taken := matching.takeUp
  have machines := matching.machine
  have hands := matching.hand
  have told_eq := matching.told_eq
  obtain ⟨machine, hand, told⟩ := scene
  obtain ⟨otherMachine, otherHand, _⟩ := other
  obtain rfl := told_eq
  cases hands with
  | idle => exact ⟨1, taken rfl⟩
  | busy works => exact exists_advance_of_work works machines rfl _ _

end Matches

/-! ### Lives -/

/-- While its worker has something in hand the client of a machine changes its state in callbacks
only. -/
def IsCalm (scene : Scene κ τ ω) : List (Move κ τ ω) → Prop
  | [] => True
  | move :: moves =>
      (∀ world, move = .operation (.change world) → scene.hand = none) ∧
        (scene.live move).IsCalm moves

omit scene other in
/-- Requests of the worker are no calls, and no changes by the client. -/
theorem requests (scene : Scene κ τ ω) (count : Nat) (moves : List (Move κ τ ω)) :
    let requests := List.replicate count (.operation .advance)
    (scene.liveThrough (requests ++ moves) = (scene.perform requests).liveThrough moves) ∧
      (scene.replies (requests ++ moves)).reduceOption =
        ((scene.perform requests).replies moves).reduceOption ∧
      (scene.IsCalm (requests ++ moves) ↔ (scene.perform requests).IsCalm moves) := by
  induction count generalizing scene with
  | zero => exact ⟨rfl, rfl, Iff.rfl⟩
  | succ count inductionHypothesis =>
      obtain ⟨through_eq, replies_eq, calm_iff⟩ := inductionHypothesis scene.advance
      refine ⟨through_eq, replies_eq, ?_⟩
      rw [List.replicate_succ, List.cons_append, IsCalm]
      exact ⟨fun calm => calm_iff.mp calm.2, fun calm => ⟨nofun, calm_iff.mpr calm⟩⟩

end Scene

/-- It is no request of the worker. -/
def Move.isCall : Move κ τ ω → Bool
  | .operation .advance => false
  | _ => true

/-- From two scenes on the same calls are made, they are answered the same, and the scenes end
up the same in everything that can be compared. -/
structure Scene.Parallel
    (comparison : Comparison ω σ)
    (scene : Scene κ τ ω)
    (moves : List (Move κ τ ω))
    (other : Scene κ τ ω)
    (otherMoves : List (Move κ τ ω)) : Prop where
  calls_eq : moves.filter Move.isCall = otherMoves.filter Move.isCall
  replies_eq : (scene.replies moves).reduceOption = (other.replies otherMoves).reduceOption
  isMatch : (scene.liveThrough moves).Matches comparison (other.liveThrough otherMoves)

/-- Whatever happens to one machine can happen to the other. -/
theorem Scene.Matches.exists_parallel
    {scene other : Scene κ τ ω}
    (matching : scene.Matches comparison other)
    {moves : List (Move κ τ ω)}
    (calm : scene.IsCalm moves) :
    ∃ otherMoves, other.IsCalm otherMoves ∧
      scene.Parallel comparison moves other otherMoves := by
  induction moves generalizing scene other with
  | nil => exact ⟨[], trivial, rfl, rfl, matching⟩
  | cons move moves inductionHypothesis =>
      by_cases byWorker : move = .operation .advance
      · subst byWorker
        obtain ⟨count, advanced⟩ := matching.exists_advance
        obtain ⟨otherMoves, otherCalm, parallel⟩ := inductionHypothesis advanced calm.2
        obtain ⟨through_eq, replies_eq, calm_iff⟩ := requests other count otherMoves
        refine ⟨List.replicate count (.operation .advance) ++ otherMoves,
          calm_iff.mpr otherCalm, ?_, ?_, ?_⟩
        · rw [List.filter_append, List.filter_replicate_of_neg Bool.false_ne_true]
          exact parallel.calls_eq
        · rw [replies_eq]
          exact parallel.replies_eq
        · rw [through_eq]
          exact parallel.isMatch
      · obtain ⟨otherMoves, otherCalm, parallel⟩ :=
          inductionHypothesis (matching.live byWorker calm.1) calm.2
        have isCall : move.isCall = true := by
          cases move with
          | tell => rfl
          | operation operation =>
              cases operation with
              | advance => contradiction
              | _ => rfl
        refine ⟨move :: otherMoves, ⟨fun world same => ?_, otherCalm⟩, ?_, ?_, parallel.isMatch⟩
        · exact matching.hand_eq_none_iff.mp (calm.1 world same)
        · rw [List.filter_cons_of_pos isCall, List.filter_cons_of_pos isCall, parallel.calls_eq]
        · have replies_eq := parallel.replies_eq
          simp only [replies, List.reduceOption, List.filterMap_cons,
            matching.reply?_eq] at replies_eq ⊢
          rw [replies_eq]

end Statechart
