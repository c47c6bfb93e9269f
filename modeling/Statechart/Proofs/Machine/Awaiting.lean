import Statechart.Proofs.Machine.Settling

/-!
# Calls that wait

A call that waits is a sequence of operations on its machine, so it is a part of a course.
What holds of callers in a course therefore holds of the call.
-/

namespace Statechart

variable {κ τ ω : Type} [DecidableEq κ] [StateKey κ] [DecidableEq τ] [Inspect τ]

/-! ## Waiting as operations -/

namespace Machine

theorem perform_append (machine : Machine κ τ ω) (earlier later : List (Operation κ τ ω)) :
    machine.perform (earlier ++ later) = (machine.perform earlier).perform later :=
  List.foldl_append

/-- A worker that has nothing more to do has handled some commands. -/
theorem exists_run_eq_perform (bound : Nat) (machine : Machine κ τ ω) :
    ∃ operations, machine.run bound = machine.perform operations := by
  induction bound generalizing machine with
  | zero => exact ⟨[], rfl⟩
  | succ bound inductionHypothesis =>
      rw [run]
      split
      · obtain ⟨operations, run_eq⟩ := inductionHypothesis machine.advance
        exact ⟨.advance :: operations, run_eq⟩
      · exact ⟨[], rfl⟩

/-- A turn of the worker and then one of the callers. -/
theorem exists_turn_eq_perform (machine : Machine κ τ ω) :
    ∃ operations, machine.turn = machine.perform operations := by
  obtain ⟨operations, run_eq⟩ := machine.exists_run_eq_perform turnLength
  refine ⟨operations ++ [.deposit], ?_⟩
  rw [turn, run_eq, perform_append]
  rfl

theorem exists_runUntilAnswered_eq_perform
    (ticket bound : Nat)
    (machine : Machine κ τ ω) :
    ∃ operations, machine.runUntilAnswered ticket bound = machine.perform operations := by
  induction bound generalizing machine with
  | zero => exact ⟨[], rfl⟩
  | succ bound inductionHypothesis =>
      obtain ⟨first, turn_eq⟩ := machine.exists_turn_eq_perform
      simp only [runUntilAnswered]
      by_cases answered : (machine.turn.answer? ticket).isSome
      · exact ⟨first, (if_pos answered).trans turn_eq⟩
      · obtain ⟨later, run_eq⟩ := inductionHypothesis machine.turn
        refine ⟨first ++ later, ?_⟩
        rw [if_neg answered, run_eq, turn_eq, perform_append]

omit [DecidableEq κ] [StateKey κ] [DecidableEq τ] [Inspect τ] in
/-- The number that a caller is given is the next one, and the machine is running. -/
theorem eq_of_settle_eq_ok
    {machine after : Machine κ τ ω}
    {ticket : Nat}
    (asked : machine.settle = (.ok ticket, after)) :
    machine.session.phase = .running ∧ ticket = machine.tickets ∧ after = machine.settle.2 := by
  suffices machine.session.phase = .running ∧ ticket = machine.tickets from
    ⟨this.1, this.2, congrArg Prod.snd asked.symm⟩
  rw [settle] at asked
  split at asked
  · cases asked
  · cases asked
  · rename_i running
    exact ⟨running, (Except.ok.inj (congrArg Prod.fst asked)).symm⟩

omit [DecidableEq κ] [StateKey κ] [DecidableEq τ] [Inspect τ] in
/-- Whoever is told that all is well has got this answer. -/
theorem answer?_of_outcomeOf
    {machine : Machine κ τ ω}
    {ticket : Nat}
    (outcome : machine.outcomeOf (.ok ticket) = .ok ()) :
    machine.answer? ticket = some (.ok ()) := by
  rw [outcomeOf] at outcome
  cases answer_eq : machine.answer? ticket with
  | none =>
      rw [answer_eq] at outcome
      cases outcome
  | some answer =>
      rw [answer_eq] at outcome
      exact congrArg some outcome

omit [DecidableEq κ] [StateKey κ] [DecidableEq τ] [Inspect τ] in
theorem phase_settle (machine : Machine κ τ ω) :
    machine.settle.2.session.phase = machine.session.phase := by
  rw [settle]
  split <;> rfl

omit [DecidableEq κ] [StateKey κ] [DecidableEq τ] [Inspect τ] in
/-- Asking answers nobody. -/
theorem answer?_settle (machine : Machine κ τ ω) (ticket : Nat) :
    machine.settle.2.answer? ticket = machine.answer? ticket := by
  rw [settle]
  split <;> rfl

omit [DecidableEq κ] [StateKey κ] [DecidableEq τ] [Inspect τ] in
/-- A running machine that is asked to stop is stopped. -/
theorem requestStop_of_running
    {machine : Machine κ τ ω}
    (running : machine.session.phase = .running) :
    machine.requestStop =
      (.ok (), { machine with session := { machine.session with phase := .stopped } }) := by
  rw [requestStop, running]

/-- A call that comes back with a good answer is a sequence of operations after which the
next caller has this answer. -/
theorem exists_perform_of_awaitSettled
    {machine after : Machine κ τ ω}
    (settled : machine.awaitSettled = (.ok (), after)) :
    ∃ operations, machine.perform operations = after ∧
      after.answer? machine.tickets = some (.ok ()) := by
  rw [awaitSettled] at settled
  split at settled
  · cases settled
  · rename_i ticket asked isAsked
    obtain ⟨_, rfl, rfl⟩ := eq_of_settle_eq_ok isAsked
    obtain ⟨operations, run_eq⟩ :=
      machine.settle.2.exists_runUntilAnswered_eq_perform machine.tickets
        machine.settle.2.turnsToAnswer
    obtain ⟨outcome, rfl⟩ := Prod.mk.inj settled
    exact ⟨.settle :: operations, run_eq.symm, answer?_of_outcomeOf outcome⟩

end Machine

/-! ## Calls in a course -/

namespace Course

variable {definition : Definition κ τ ω} {course : Course definition}

/-- Operations on a machine are moves in a lobby. -/
theorem exists_lobby_perform
    {visits : List (Visit κ τ ω)}
    {machine : Machine κ τ ω}
    (reached : (course.lobby visits).scene = machine.scene)
    (operations : List (Operation κ τ ω)) :
    ∃ later, (course.lobby (visits ++ later)).scene = (machine.perform operations).scene := by
  obtain ⟨moves, performs⟩ := Scene.exists_perform_eq machine operations
  refine ⟨moves.map .move, ?_⟩
  rw [lobby_append, Lobby.perform_moves]
  simp only [reached]
  exact performs

variable {draft : MachineDraft κ τ ω} (built : draft.build = .ok definition)

include built

/-- A call that comes back with a good answer comes back after everything that had been
accepted before. -/
theorem exists_hasHandled_of_awaitSettled
    {machine after : Machine κ τ ω}
    (reached : course.scene = machine.scene)
    (settled : machine.awaitSettled = (.ok (), after)) :
    ∃ chronicle last, after.scene.HasHandled definition course.beginning.base
      machine.session.accepted chronicle last := by
  obtain ⟨operations, rfl, answered⟩ := Machine.exists_perform_of_awaitSettled settled
  have beginsThere : (course.lobby []).scene = machine.scene := reached
  obtain ⟨later, later_eq⟩ := exists_lobby_perform beginsThere operations
  have new : (course.lobby []).tickets ≤ machine.tickets :=
    (congrArg (·.machine.tickets) reached).le
  have accepted_eq : machine.session.accepted =
      (course.lobby []).scene.machine.session.accepted :=
    congrArg (·.machine.session.accepted) reached.symm
  rw [← later_eq, accepted_eq]
  refine course.exists_hasHandled built new ?_
  rw [later_eq]
  exact answered

/-- Nobody has the next number yet. -/
theorem answer?_tickets_eq_none (visits : List (Visit κ τ ω)) :
    (course.lobby visits).scene.machine.answer? (course.lobby visits).tickets = none := by
  have kept := course.isKept_lobby built visits
  by_contra answered
  obtain ⟨answer, answered⟩ := Option.ne_none_iff_exists'.mp answered
  have listed := List.mem_map_of_mem (f := Prod.fst)
    ((Lobby.answer?_eq_some_iff kept).mp answered)
  exact Nat.lt_irrefl _
    (List.mem_range.mp (kept.callers_perm.mem_iff.mp (List.mem_append_right _ listed)))

/-- A call that waits while the machine is stopped comes back with an error. -/
theorem awaitSettledAndStop_ne_ok
    {machine : Machine κ τ ω}
    (reached : course.scene = machine.scene) :
    machine.awaitSettledAndStop.1 ≠ .ok () := by
  intro settled
  rw [Machine.awaitSettledAndStop] at settled
  cases asked_eq : machine.settle with
  | mk ticket? asked =>
      rw [asked_eq] at settled
      cases ticket? with
      | error error => cases settled
      | ok ticket =>
          obtain ⟨running, rfl, rfl⟩ := Machine.eq_of_settle_eq_ok asked_eq
          have stops := Machine.requestStop_of_running (machine.phase_settle.trans running)
          -- The call asks, stops the machine, and lets the worker end it.
          have beginsThere : (course.lobby []).scene = machine.scene := reached
          obtain ⟨visits, visits_eq⟩ := exists_lobby_perform beginsThere [.settle, .requestStop]
          obtain ⟨later, later_eq⟩ := exists_lobby_perform visits_eq [.advance]
          have isTold := congrArg Scene.told visits_eq
          have unanswered := congrArg (·.machine.answer? machine.tickets) visits_eq
          have answered := congrArg (·.machine.answer? machine.tickets) later_eq
          simp only [Machine.scene, Machine.perform, List.foldl_cons, List.foldl_nil,
            Machine.apply, stops] at isTold unanswered answered
          simp only [Machine.stop, stops] at settled
          rw [Machine.answer?_of_outcomeOf settled] at answered
          have none_before : machine.answer? machine.tickets = none := by
            have unasked := course.answer?_tickets_eq_none built []
            rwa [Lobby.tickets, beginsThere] at unasked
          rcases (course.settles_of_build built _).told isTold
            (unanswered.trans ((machine.answer?_settle _).trans none_before)) later _ answered
            with bad | bad
          · cases bad
          · cases bad

/-- Whatever happens in the course of time, callers who wait are told what holds, and change
nothing for others. The same holds of whole calls on a machine whose worker is not
interrupted, as what happens to it is one of the courses. -/
theorem settles :
    (∀ run : Run definition, ∃ course : Course definition,
      course.beginning = run.beginning ∧ course.scene = run.machine.scene) ∧
      (∀ (course : Course definition) (visits : List (Visit κ τ ω)), course.Settles visits) ∧
      (∀ (run : Run definition) (after : Machine κ τ ω),
        run.machine.awaitSettled = (.ok (), after) →
          ∃ chronicle last, after.scene.HasHandled definition run.beginning.base
            run.machine.session.accepted chronicle last) ∧
      ∀ run : Run definition, run.machine.awaitSettledAndStop.1 ≠ .ok () := by
  refine ⟨fun run => run.exists_course, fun course => course.settles_of_build built,
    fun run after settled => ?_, fun run => ?_⟩
  · obtain ⟨course, beginning_eq, scene_eq⟩ := run.exists_course
    rw [← beginning_eq]
    exact exists_hasHandled_of_awaitSettled built scene_eq settled
  · obtain ⟨course, _, scene_eq⟩ := run.exists_course
    exact awaitSettledAndStop_ne_ok built scene_eq

end Course

/-! ## An example -/

namespace Course

/-- A course that ends when the worker of a machine with one place in its queue waits for its
first event. -/
def roomy : Course narrow :=
  { crowded with moves := requests 6 }

/-- An event takes the place. Of two callers who ask one waits in line. -/
def crowd : List (Visit String String Unit) :=
  [.move (.operation (.fire (.new .nil "cross"))), .ask, .send 0, .ask]

/-- The worker makes room for the caller in line, and goes on until all is done. -/
def passage : List (Visit String String Unit) :=
  .move (.operation .advance) :: .place 0 :: (requests 20).map .move

/-- The machine is stopped while one caller has the place and another one is on its way. -/
def curfew : List (Visit String String Unit) :=
  [.ask, .send 1, .move (.operation .requestStop), .move .tell] ++ (requests 8).map .move ++
    [.send 2]

/-- The caller who has waited in line is told that all is done when the event has been
processed. The two who come too late are turned down. -/
theorem settles_roomy :
    narrowDraft.build = .ok narrow ∧
      (roomy.lobby crowd).queue.waiting = [0] ∧
      (roomy.lobby crowd).scene.machine.session.accepted.length = 1 ∧
      (roomy.lobby (crowd ++ passage)).scene.machine.answer? 0 = some (.ok ()) ∧
      (roomy.lobby (crowd ++ passage)).scene.machine.snapshot.metadata.count = 1 ∧
      (roomy.lobby (crowd ++ passage ++ curfew)).scene.machine.answer? 1 =
        some (.error .stopped) ∧
      (roomy.lobby (crowd ++ passage ++ curfew)).scene.machine.answer? 2 =
        some (.error .notRunning) ∧
      roomy.Settles (crowd ++ passage ++ curfew) := by
  have built : narrowDraft.build = .ok narrow := by cbv
  exact ⟨built, by cbv, by cbv, by cbv, by cbv, by cbv, by cbv, (settles built).2.1 roomy _⟩

end Course
end Statechart
