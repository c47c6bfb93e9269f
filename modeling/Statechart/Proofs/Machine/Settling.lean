import Statechart.Machine.Waiting
import Statechart.Proofs.Machine.Bookkeeping
import Statechart.Proofs.Machine.Shutdown

/-!
# What callers who wait are told

A caller who waits is told that everything has been handled only when all events that were
accepted before the caller asked have been processed to their ends, and then the machine
shows them all. If the worker is told to stop first, the caller is turned down. That callers
wait changes nothing for anybody else.
-/

namespace Statechart

variable {κ τ ω : Type} [DecidableEq κ] [StateKey κ] [DecidableEq τ] [Inspect τ]

/-! ## The moment of a good answer -/

namespace Machine

/-- Nobody but the worker answers callers who wait. -/
theorem answers_apply
    {machine : Machine κ τ ω}
    (begun : machine.session.phase ≠ .created)
    {operation : Operation κ τ ω}
    (byCaller : operation ≠ .advance) :
    (machine.apply operation).answers = machine.answers := by
  cases operation with
  | advance => contradiction
  | start hasRuntime => rw [apply, start, launch_of_begun begun]
  | startFrom checkpoint hasRuntime =>
      rw [apply, startFrom_of_begun begun]
      rcases machine.comparingName_cases checkpoint with same | noted
      · rw [same]
      · rw [noted]
  | fire event => rfl
  | settle =>
      rw [apply, settle]
      split <;> rfl
  | requestStop =>
      rw [apply, requestStop]
      split <;> rfl
  | deposit => rfl
  | change world => rfl
  | pass clock => rfl

end Machine

namespace Scene

/-- The worker is between two tasks, and has not been told to stop. -/
def IsReady (scene : Scene κ τ ω) : Prop :=
  scene.hand = none ∧ (∃ worker, scene.machine.worker = some worker) ∧ scene.told = false

omit [DecidableEq κ] [StateKey κ] [DecidableEq τ] [Inspect τ] in
theorem exists_worker_of_idle
    {scene : Scene κ τ ω}
    (isIdle : scene.position = .idle) :
    scene.hand = none ∧ ∃ worker, scene.machine.worker = some worker := by
  rw [position] at isIdle
  split at isIdle <;> first | contradiction | exact ⟨‹_›, _, ‹_›⟩

/-- A worker that comes to a marker changes nothing but who waits. -/
theorem sameButForCallers_marker
    {scene : Scene κ τ ω}
    {ticket : Nat}
    {rest : Queue τ}
    (isIdle : scene.position = .idle)
    (notTold : scene.told = false)
    (popped : scene.machine.session.queue.pop? = some (.marker ticket, rest)) :
    scene.SameButForCallers (scene.apply (.operation .advance)) := by
  obtain ⟨idle, worker, isWorker⟩ := exists_worker_of_idle isIdle
  have events_eq : rest.events = scene.machine.session.queue.events := by
    rw [Queue.events, Queue.events, Queue.items_of_pop?_eq_some popped]
    rfl
  obtain ⟨⟨definition, session, _, tickets, answers⟩, _, _⟩ := scene
  cases idle
  cases isWorker
  cases notTold
  simp only [apply, advance, takeUp, Bool.false_eq_true, if_false, popped]
  exact ⟨rest, _, _, rfl, Queue.capacity_of_pop? popped, events_eq⟩

/-- A worker that takes up its next task answers nobody, turns down everybody, or comes to a
marker. -/
theorem answers_takeUp (scene : Scene κ τ ω) (idle : scene.hand = none) :
    scene.takeUp.machine.answers = scene.machine.answers ∨
      scene.takeUp.machine.answers =
        scene.machine.session.queue.turnedDown ++ scene.machine.answers ∨
      scene.takeUp.IsReady := by
  rw [takeUp]
  split
  · exact .inl rfl
  · rename_i worker isWorker
    split
    · exact .inr (.inl rfl)
    · rename_i notTold
      split
      · exact .inl rfl
      · exact .inr (.inr ⟨idle, ⟨worker, isWorker⟩, Bool.eq_false_iff.mpr notTold⟩)
      · exact .inl rfl

/-- A good answer is given by a worker that is between two tasks. -/
theorem isReady_of_answered
    {scene : Scene κ τ ω}
    (begun : scene.machine.session.phase ≠ .created)
    {move : Move κ τ ω}
    {ticket : Nat}
    (unanswered : (ticket, .ok ()) ∉ scene.machine.answers)
    (answered : (ticket, .ok ()) ∈ (scene.apply move).machine.answers) :
    (scene.apply move).IsReady := by
  cases move with
  | tell => exact absurd answered unanswered
  | operation operation =>
      by_cases byWorker : operation = .advance
      · subst byWorker
        rw [apply, advance] at answered ⊢
        cases hand_eq : scene.hand with
        | none =>
            simp only [hand_eq] at answered ⊢
            rcases scene.answers_takeUp hand_eq with same | closed | ready
            · exact absurd (same ▸ answered) unanswered
            · rw [closed, List.mem_append] at answered
              rcases Queue.of_mem_turnedDown (answered.resolve_right unanswered) with bad | bad
              · cases bad
              · cases bad
            · exact ready
        | some hand =>
            obtain ⟨task, work⟩ := hand
            simp only [hand_eq] at answered
            cases work <;> exact absurd answered unanswered
      · rw [scene.apply_of_ne_advance byWorker] at answered
        exact absurd (Machine.answers_apply begun byWorker ▸ answered) unanswered

end Scene

namespace Lobby

omit [DecidableEq κ] [StateKey κ] [DecidableEq τ] [Inspect τ] in
theorem answer?_eq_some_iff
    {lobby : Lobby κ τ ω}
    (kept : lobby.register.IsKept)
    {ticket : Nat}
    {answer : Except MachineError Unit} :
    lobby.scene.machine.answer? ticket = some answer ↔
      (ticket, answer) ∈ lobby.register.answers := by
  rw [Machine.answer?, Option.map_eq_some_iff]
  constructor
  · rintro ⟨_, found, rfl⟩
    obtain ⟨listed, rfl⟩ := kept.find?_answers_iff.mp found
    exact listed
  · exact fun listed => ⟨_, kept.find?_answers_iff.mpr ⟨listed, rfl⟩, rfl⟩

theorem isReady_of_answered
    {lobby : Lobby κ τ ω}
    (begun : lobby.scene.machine.session.phase ≠ .created)
    {visit : Visit κ τ ω}
    {ticket : Nat}
    (unanswered : (ticket, .ok ()) ∉ lobby.answers)
    (answered : (ticket, .ok ()) ∈ (lobby.apply visit).answers) :
    (lobby.apply visit).scene.IsReady := by
  cases visit with
  | move move => exact Scene.isReady_of_answered begun unanswered answered
  | ask =>
      rw [apply, ask] at answered
      split at answered <;> exact absurd answered unanswered
  | send other =>
      rw [apply, send] at answered
      split at answered
      · split at answered
        · rcases List.mem_cons.mp answered with new | old
          · cases congrArg Prod.snd new
          · exact absurd old unanswered
        · exact absurd answered unanswered
      · exact absurd answered unanswered
  | place other => exact absurd answered unanswered

end Lobby

/-! ## What a chronicle shows -/

/-- An event that has been processed to its end has been carried out to its last
notification. -/
theorem Handles.performs
    {definition : Definition κ τ ω}
    {first worker : Worker κ}
    {accounts : List (Account κ τ ω)}
    (handles : Handles definition first accounts worker)
    {account : Account κ τ ω}
    (member : account ∈ accounts) :
    (Work.process definition account.before account.event).Performs
      (account.deeds definition) (account.after definition) := by
  obtain ⟨earlier, later, split⟩ := List.append_of_mem member
  exact (handles.of_split split).2.2

/-- A worker that has opened has come to some position by its events, and has been shown
there. -/
theorem Scene.Unfolds.exists_handles
    {definition : Definition κ τ ω}
    {opening : Work κ τ ω (Worker κ)}
    {base : UInt64}
    {blank : Snapshot κ}
    {scene : Scene κ τ ω}
    {chronicle : Chronicle κ τ ω}
    (unfolds : scene.Unfolds definition opening base blank chronicle)
    (opens : opening.Opens definition base)
    (opened : scene.position ≠ .opening) :
    ∃ first last, Handles definition first chronicle.accounts last ∧
      last.metadata.count = base + UInt64.ofNat chronicle.accounts.length ∧
      scene.machine.snapshot =
        Session.shownAfter (last.snapshot definition) chronicle.current := by
  obtain ⟨first, last, performs, handles⟩ :=
    unfolds.stage.of_opened fun work busy => opened (by rw [position, busy])
  refine ⟨first, last, handles, ?_, ?_⟩
  · rw [handles.count_eq, opens.count_eq performs]
  · rw [Machine.snapshot, unfolds.shown_eq, unfolds.deeds_eq, Chronicle.deeds,
      Session.shownAfter_append, Session.shownAfter_append, opens.shownAfter_eq performs,
      handles.shownAfter_eq]

/-! ## Courses -/

/-- Some events have been processed to their ends, and the machine shows them. The chronicle
is that of the machine, and the worker has come to the last one by the events in it. -/
structure Scene.HasHandled
    (definition : Definition κ τ ω)
    (base : UInt64)
    (scene : Scene κ τ ω)
    (events : List (Event τ))
    (chronicle : Chronicle κ τ ω)
    (last : Worker κ) : Prop where
  /-- The journal lists the deeds. -/
  deeds_eq : scene.machine.session.deeds = chronicle.deeds definition
  /-- The events are the first ones that have an account. -/
  events_isPrefix : events <+: chronicle.accounts.map Account.event
  /-- An account tells all deeds at its event, up to the last notification. -/
  performs : ∀ account ∈ chronicle.accounts,
    (Work.process definition account.before account.event).Performs
      (account.deeds definition) (account.after definition)
  /-- One event after the other has led to the last worker. -/
  handles : ∃ first, Handles definition first chronicle.accounts last
  /-- The last worker has counted the events. -/
  count_eq : last.metadata.count = base + UInt64.ofNat chronicle.accounts.length
  /-- What is shown is the last worker, or has been published later. -/
  snapshot_eq : scene.machine.snapshot =
    Session.shownAfter (last.snapshot definition) chronicle.current

namespace Course

variable {definition : Definition κ τ ω}

/-- What happens where callers wait, after a course. -/
def lobby (course : Course definition) (visits : List (Visit κ τ ω)) : Lobby κ τ ω :=
  (⟨course.scene, []⟩ : Lobby κ τ ω).perform visits

/-- When a machine has just been set running, nobody waits. -/
theorem nobody_waits_first (course : Course definition) :
    course.first.machine.session.queue = Queue.empty definition.settings.queueCapacity ∧
      course.first.machine.tickets = 0 ∧ course.first.machine.answers = [] ∧
      course.first.position = .opening ∧ course.first.told = false := by
  have accepted := course.accepted
  cases begins : course.beginning with
  | start =>
      rw [begins] at accepted
      rw [← Except.ok.inj accepted]
      exact ⟨rfl, rfl, rfl, rfl, rfl⟩
  | restore checkpoint =>
      rw [begins, Scene.begin] at accepted
      split at accepted
      · contradiction
      · rw [← Except.ok.inj accepted]
        rcases (Machine.new definition course.clock course.world).comparingName_cases checkpoint
          with same | noted
        · rw [same]
          exact ⟨rfl, rfl, rfl, rfl, rfl⟩
        · rw [noted]
          exact ⟨rfl, rfl, rfl, rfl, rfl⟩

/-- When a machine has just been set running, the register is in order. -/
theorem isKept_first (course : Course definition) :
    (⟨course.first, []⟩ : Lobby κ τ ω).register.IsKept := by
  obtain ⟨queue_eq, tickets_eq, answers_eq, position_eq, told_eq⟩ := course.nobody_waits_first
  obtain ⟨_, _, unfolds⟩ := Scene.unfolds_begin course.accepted
  exact {
    callers_perm := by
      simp only [Lobby.register, Lobby.queue, Lobby.tickets, Lobby.answers, queue_eq, tickets_eq,
        answers_eq]
      exact .refl _
    nobody_waits := fun _ => congrArg Queue.callers queue_eq
    told := fun closed => absurd (position_eq.symm.trans closed) nofun
    accepted_eq := fun _ => unfolds.accepted_eq_of_not_told told_eq
    unanswered := fun _ => answers_eq
    completed_isPrefix := by
      simp only [Lobby.register, Scene.completed, position_eq]
      exact List.prefix_refl _
    completed_eq := fun idle => absurd (position_eq.symm.trans idle) nofun }

/-- The register stays in order. -/
theorem isKept_lobby
    {draft : MachineDraft κ τ ω}
    (built : draft.build = .ok definition)
    (course : Course definition)
    (visits : List (Visit κ τ ω)) :
    (course.lobby visits).register.IsKept := by
  have forest := (Definition.isWellFormed_of_build built).forest
  have fits := Definition.fits_of_build built
  obtain ⟨_, _, unfolds⟩ := Scene.unfolds_begin course.accepted
  have becomes := Lobby.becomes_perform forest fits unfolds course.isKept_first
    (course.moves.map .move ++ visits)
  rw [Lobby.perform_append, Lobby.perform_moves] at becomes
  exact course.isKept_first.becomes becomes

/-- What callers who wait are told, and what waiting does to others. -/
structure Settles (course : Course definition) (visits : List (Visit κ τ ω)) : Prop where
  /-- A caller who asks a running machine is given the next number. -/
  asks : (course.lobby visits).scene.machine.session.phase = .running →
    (course.lobby visits).ask.1 = .ok (course.lobby visits).tickets
  /-- A caller who asks any other machine is turned down at once. -/
  turned_away : (course.lobby visits).scene.machine.session.phase ≠ .running →
    (course.lobby visits).ask = (.error .notRunning, course.lobby visits)
  /-- If a caller is told that everything has been handled, the events that had been accepted
  before the caller asked have been processed to their ends, and the machine shows them. -/
  handled {earlier later : List (Visit κ τ ω)} {ticket : Nat} :
    visits = earlier ++ later → (course.lobby earlier).tickets ≤ ticket →
      (course.lobby visits).scene.machine.answer? ticket = some (.ok ()) →
      ∃ chronicle last, (course.lobby visits).scene.HasHandled definition
        course.beginning.base (course.lobby earlier).scene.machine.session.accepted
          chronicle last
  /-- At the moment of this answer the worker is between two tasks, and is shown as it is. -/
  reflected {visit : Visit κ τ ω} {ticket : Nat} :
    (course.lobby visits).scene.machine.answer? ticket = none →
      (course.lobby (visits ++ [visit])).scene.machine.answer? ticket = some (.ok ()) →
      ∃ worker, (course.lobby (visits ++ [visit])).scene.hand = none ∧
        (course.lobby (visits ++ [visit])).scene.machine.worker = some worker ∧
        (course.lobby (visits ++ [visit])).scene.machine.snapshot =
          worker.snapshot definition ∧
        worker.metadata.count = course.beginning.base +
          UInt64.ofNat (course.lobby (visits ++ [visit])).scene.machine.session.begun.length
  /-- An answer is final. -/
  final {ticket : Nat} {answer : Except MachineError Unit} :
    (course.lobby visits).scene.machine.answer? ticket = some answer →
      ∀ later, (course.lobby (visits ++ later)).scene.machine.answer? ticket = some answer
  /-- Whoever has no answer when the worker is told to stop will be turned down. -/
  told {ticket : Nat} :
    (course.lobby visits).scene.told = true →
      (course.lobby visits).scene.machine.answer? ticket = none →
      ∀ later answer,
        (course.lobby (visits ++ later)).scene.machine.answer? ticket = some answer →
        answer = .error .stopped ∨ answer = .error .notRunning
  /-- A worker that is told to stop closes the queue if it goes on long enough. -/
  closes : (course.lobby visits).scene.told = true →
    ∃ count, (course.lobby (visits ++
      List.replicate count (.move (.operation .advance)))).scene.position = .closed
  /-- When the queue is closed everybody is answered who has gone for a place. -/
  closed {ticket : Nat} :
    (course.lobby visits).scene.position = .closed →
      ticket < (course.lobby visits).tickets → ticket ∉ (course.lobby visits).asking →
      ∃ answer, (course.lobby visits).scene.machine.answer? ticket = some answer
  /-- Whoever goes for a place then is turned down. -/
  refused {ticket : Nat} :
    (course.lobby visits).scene.position = .closed → ticket ∈ (course.lobby visits).asking →
      (course.lobby (visits ++ [.send ticket])).scene.machine.answer? ticket =
        some (.error .notRunning)
  /-- A caller who takes a step changes nothing but who waits. -/
  keeps {visit : Visit κ τ ω} :
    (∀ move, visit ≠ .move move) →
      (course.lobby visits).scene.SameButForCallers
        (course.lobby (visits ++ [visit])).scene
  /-- Callers who take several steps at once change nothing else either. -/
  keeps_at_once {operation : Operation κ τ ω} :
    operation = .settle ∨ operation = .deposit →
      (course.lobby visits).scene.SameButForCallers
        ((course.lobby visits).scene.apply (.operation operation))
  /-- A worker that comes to a marker changes nothing else either. -/
  keeps_marker {ticket : Nat} {rest : Queue τ} :
    (course.lobby visits).scene.position = .idle → (course.lobby visits).scene.told = false →
      (course.lobby visits).queue.pop? = some (.marker ticket, rest) →
      (course.lobby visits).scene.SameButForCallers
        ((course.lobby visits).scene.apply (.operation .advance))

section Settles

variable
  {draft : MachineDraft κ τ ω}
  (built : draft.build = .ok definition)
  (course : Course definition)
  {visits : List (Visit κ τ ω)}

theorem lobby_append (visits later : List (Visit κ τ ω)) :
    course.lobby (visits ++ later) = (course.lobby visits).perform later :=
  Lobby.perform_append _ _ _

include built

theorem exists_unfolds_lobby (visits : List (Visit κ τ ω)) :
    ∃ opening chronicle, opening.Opens definition course.beginning.base ∧
      (course.lobby visits).scene.Unfolds definition opening course.beginning.base course.blank
        chronicle := by
  have forest := (Definition.isWellFormed_of_build built).forest
  obtain ⟨opening, _, opens, unfolds⟩ := course.exists_unfolds built
  obtain ⟨chronicle, unfolds⟩ := Scene.Unfolds.visits ⟨course.scene, []⟩ forest
    (Definition.fits_of_build built) unfolds visits
  exact ⟨opening, chronicle, opens, unfolds⟩

theorem becomes_lobby (visits later : List (Visit κ τ ω)) :
    (course.lobby visits).register.Becomes (course.lobby (visits ++ later)).register := by
  have forest := (Definition.isWellFormed_of_build built).forest
  obtain ⟨_, _, _, unfolds⟩ := course.exists_unfolds_lobby built visits
  rw [lobby_append]
  exact Lobby.becomes_perform forest (Definition.fits_of_build built) unfolds
    (course.isKept_lobby built visits) later

/-- A good answer comes after everything that had been accepted before. -/
theorem exists_hasHandled
    {earlier later : List (Visit κ τ ω)}
    {ticket : Nat}
    (new : (course.lobby earlier).tickets ≤ ticket)
    (answered : (course.lobby (earlier ++ later)).scene.machine.answer? ticket = some (.ok ())) :
    ∃ chronicle last, (course.lobby (earlier ++ later)).scene.HasHandled definition
      course.beginning.base (course.lobby earlier).scene.machine.session.accepted
        chronicle last := by
  have kept := course.isKept_lobby built earlier
  have keptLater := course.isKept_lobby built (earlier ++ later)
  have promises := (kept.promises new).becomes kept (course.becomes_lobby built earlier later)
  have listed := (Lobby.answer?_eq_some_iff keptLater).mp answered
  obtain ⟨opening, chronicle, opens, unfolds⟩ :=
    course.exists_unfolds_lobby built (earlier ++ later)
  have opened : (course.lobby (earlier ++ later)).scene.position ≠ .opening := fun isOpening =>
    List.ne_nil_of_mem listed (keptLater.unanswered isOpening)
  obtain ⟨first, last, handles, count_eq, snapshot_eq⟩ := unfolds.exists_handles opens opened
  exact ⟨chronicle, last,
    { deeds_eq := unfolds.deeds_eq
      events_isPrefix := unfolds.completed_eq ▸ promises.answered listed
      performs := fun _ => handles.performs
      handles := ⟨first, handles⟩
      count_eq
      snapshot_eq }⟩

/-- A good answer is given while the machine shows everything that it has begun. -/
theorem exists_reflected
    {visit : Visit κ τ ω}
    {ticket : Nat}
    (unanswered : (course.lobby visits).scene.machine.answer? ticket = none)
    (answered :
      (course.lobby (visits ++ [visit])).scene.machine.answer? ticket = some (.ok ())) :
    ∃ worker, (course.lobby (visits ++ [visit])).scene.hand = none ∧
      (course.lobby (visits ++ [visit])).scene.machine.worker = some worker ∧
      (course.lobby (visits ++ [visit])).scene.machine.snapshot =
        worker.snapshot definition ∧
      worker.metadata.count = course.beginning.base +
        UInt64.ofNat (course.lobby (visits ++ [visit])).scene.machine.session.begun.length := by
  obtain ⟨_, _, _, before⟩ := course.exists_unfolds_lobby built visits
  obtain ⟨opening, chronicle, opens, unfolds⟩ :=
    course.exists_unfolds_lobby built (visits ++ [visit])
  have new : (ticket, .ok ()) ∉ (course.lobby visits).answers := fun listed => by
    rw [(Lobby.answer?_eq_some_iff (course.isKept_lobby built visits)).mpr listed] at unanswered
    contradiction
  have listed :=
    (Lobby.answer?_eq_some_iff (course.isKept_lobby built (visits ++ [visit]))).mp answered
  rw [lobby_append] at listed
  obtain ⟨idle, ⟨worker, isWorker⟩, _⟩ := Lobby.isReady_of_answered before.begun new listed
  rw [lobby_append] at unfolds ⊢
  have begun_eq := unfolds.begun_eq
  have stage := unfolds.stage
  simp only [Lobby.perform_cons, Lobby.perform_nil] at unfolds begun_eq stage ⊢
  rw [Scene.underway, idle, List.append_nil] at begun_eq
  rw [idle, isWorker] at stage
  obtain ⟨opened, first, accounts, rfl, performs, handles⟩ := stage.of_idle
  refine ⟨worker, idle, isWorker, ?_, ?_⟩
  · rw [Machine.snapshot, unfolds.shown_eq, unfolds.deeds_eq, Chronicle.deeds, List.append_nil,
      Session.shownAfter_append, opens.shownAfter_eq performs, handles.shownAfter_eq]
  · rw [handles.count_eq, opens.count_eq performs, begun_eq, List.length_map]

/-- Whatever happens where callers wait, they are told what holds, and wait for themselves. -/
theorem settles_of_build (visits : List (Visit κ τ ω)) : course.Settles visits where
  asks running := by simp only [Lobby.ask, running]
  turned_away notRunning := by
    rw [Lobby.ask]
    split
    · rfl
    · rfl
    · contradiction
  handled split new answered := by
    subst split
    exact course.exists_hasHandled built new answered
  reflected := course.exists_reflected built
  final answered later := by
    have kept := course.isKept_lobby built visits
    obtain ⟨more, answers_eq, _⟩ := (course.becomes_lobby built visits later).exists_answers
    rw [Lobby.answer?_eq_some_iff (course.isKept_lobby built (visits ++ later))]
    have listed := (Lobby.answer?_eq_some_iff kept).mp answered
    exact answers_eq ▸ List.mem_append_right more listed
  told := by
    intro ticket isTold unanswered later answer answered
    have kept := course.isKept_lobby built visits
    obtain ⟨more, answers_eq, bad⟩ := (course.becomes_lobby built visits later).exists_answers
    have listed :=
      (Lobby.answer?_eq_some_iff (course.isKept_lobby built (visits ++ later))).mp answered
    rcases List.mem_append.mp (answers_eq ▸ listed) with new | old
    · exact (bad isTold).2 _ new
    · rw [(Lobby.answer?_eq_some_iff kept).mpr old] at unanswered
      contradiction
  closes isTold := by
    obtain ⟨count, ended⟩ := Scene.exists_isEnded isTold
    refine ⟨count, ?_⟩
    rw [lobby_append, ← List.map_replicate, Lobby.perform_moves]
    simp only [Scene.position, ended.1, ended.2]
  closed isClosed asked notAsking := by
    have kept := course.isKept_lobby built visits
    have placed := kept.callers_perm.mem_iff.mpr (List.mem_range.mpr asked)
    rw [kept.nobody_waits isClosed, List.nil_append, List.mem_append] at placed
    obtain ⟨⟨_, answer⟩, listed, rfl⟩ := List.mem_map.mp (placed.resolve_left notAsking)
    exact ⟨answer, (Lobby.answer?_eq_some_iff kept).mpr listed⟩
  refused := by
    intro ticket isClosed asks
    have kept := course.isKept_lobby built (visits ++ [.send ticket])
    rw [Lobby.answer?_eq_some_iff kept, lobby_append]
    simp only [Lobby.perform_cons, Lobby.perform_nil, Lobby.apply, Lobby.send, if_pos asks,
      if_pos isClosed]
    exact List.mem_cons_self
  keeps := by
    intro visit notMove
    rw [lobby_append]
    cases visit with
    | move move => exact absurd rfl (notMove move)
    | ask => exact (course.lobby visits).sameButForCallers_ask
    | send ticket => exact (course.lobby visits).sameButForCallers_send ticket
    | place ticket => exact (course.lobby visits).sameButForCallers_place ticket
  keeps_at_once := by
    rintro operation (rfl | rfl)
    · have byCaller : (.settle : Operation κ τ ω) ≠ .advance := by rintro ⟨⟩
      rw [Scene.apply_of_ne_advance _ byCaller, Machine.apply, Machine.settle]
      split
      · exact .refl _
      · exact .refl _
      · exact ⟨_, _, _, rfl, Queue.capacity_enroll _ _, Queue.events_enroll _ _⟩
    · exact ⟨_, _, _, rfl, rfl, Queue.events_deposit _⟩
  keeps_marker := Scene.sameButForCallers_marker

end Settles

end Course
end Statechart
