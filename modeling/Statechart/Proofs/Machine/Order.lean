import Statechart.Proofs.Machine.Unfolding

/-!
# The order of events

An event that is fired is accepted exactly by a running machine with a free place in its
queue, and it gets the next number. Whoever fires, and whenever the worker and the callers
get their turns, the worker begins the accepted events in the order of their numbers, each
after the one before has been processed to its end. After a word to stop it begins no more
of them.
-/

namespace Statechart

variable {κ τ ω : Type}

/-! ## What is fired -/

/-- What becomes of an event that is fired. -/
structure Session.Admits (session : Session κ τ ω) (event : Event τ) : Prop where
  /-- The event is accepted exactly by a running machine with a free place. -/
  accepts_iff : (session.fire event).1 = .ok () ↔
    session.phase = .running ∧ session.queue.isFull = false
  /-- An accepted event gets the next number and the last place in the queue. -/
  accepted : (session.fire event).1 = .ok () →
    (session.fire event).2.number = session.number + 1 ∧
      (session.fire event).2.accepted =
        session.accepted ++ [event.numbered (session.number + 1)] ∧
      (session.fire event).2.queue.events =
        session.queue.events ++ [event.numbered (session.number + 1)]
  /-- A rejected event uses no number and takes no place. -/
  rejected : (session.fire event).1 ≠ .ok () →
    (session.fire event).2.number = session.number ∧
      (session.fire event).2.accepted = session.accepted ∧
      (session.fire event).2.queue = session.queue

theorem Session.admits (session : Session κ τ ω) (event : Event τ) : session.Admits event := by
  rcases session.fire_outcome event with ⟨notRunning, fired⟩ | ⟨_, full, fired⟩ |
    ⟨running, free, queue, pushed, fired⟩
  · exact ⟨by simp [fired, notRunning], by simp [fired], by simp [fired]⟩
  · refine ⟨by simp [fired, full], by simp [fired], fun _ => ?_⟩
    rw [fired]
    exact ⟨rfl, (session.accepted_note _).trans (List.append_nil _), rfl⟩
  · refine ⟨by simp [fired, running, free], fun _ => ?_, by simp [fired]⟩
    rw [fired]
    exact ⟨rfl, accepted_note _ _, Queue.events_of_push?_event pushed⟩

/-- As long as there are numbers left, words that follow each other are those of ordinary
counting. -/
theorem Event.map_sequence_eq
    {events : List (Event τ)}
    {base : UInt64}
    (numbers_eq : events.map Event.number = Word.following base events.length)
    (few : base.toNat + events.length < Word.bound64) :
    events.map Event.sequence = List.range' (base.toNat + 1) events.length := by
  rw [← Word.map_toNat_following few, ← numbers_eq, List.map_map]
  rfl

/-! ## What is begun -/

section Order

variable [DecidableEq κ] [StateKey κ] [DecidableEq τ] [Inspect τ]

/-- The event in the hand of a worker, if there is one. -/
def Scene.underway (scene : Scene κ τ ω) : List (Event τ) :=
  match scene.hand with
  | some (.event event, _) => [event]
  | _ => []

namespace Scene
namespace Unfolds

variable
  {definition : Definition κ τ ω}
  {opening : Work κ τ ω (Worker κ)}
  {base : UInt64}
  {blank : Snapshot κ}
  {scene : Scene κ τ ω}
  {chronicle : Chronicle κ τ ω}
  (unfolds : scene.Unfolds definition opening base blank chronicle)

include unfolds

/-- The events that have been begun are those processed to their ends and the one in
hand. -/
theorem begun_eq :
    scene.machine.session.begun =
      chronicle.accounts.map Account.event ++ scene.underway := by
  obtain ⟨machine, hand, told⟩ := scene
  have stage := unfolds.stage
  rw [Session.begun_eq_filterMap_deeds, unfolds.deeds_eq, Chronicle.deeds]
  simp only [List.filterMap_append]
  generalize machine.worker = worker at stage
  cases stage with
  | opening leads => simp [leads.filterMap_began, underway]
  | idle opens handles => simp [opens.filterMap_began, handles.filterMap_began, underway]
  | event opens handles leads =>
      simp [opens.filterMap_began, handles.filterMap_began, leads.filterMap_began, underway,
        Activity.began?]
  | closing opens handles leads =>
      simp [opens.filterMap_began, handles.filterMap_began, leads.filterMap_began, underway]
  | ended opens handles performs =>
      simp [opens.filterMap_began, handles.filterMap_began, performs.filterMap_began, underway]

/-- The events that have been begun are the first accepted ones. -/
theorem begun_isPrefix : scene.machine.session.begun <+: scene.machine.session.accepted := by
  obtain ⟨discarded, held, _⟩ := unfolds.held
  exact ⟨_, by rw [held, List.append_assoc]⟩

/-- Until the worker is told to stop the other accepted events wait in the queue. -/
theorem accepted_eq_of_not_told (notTold : scene.told = false) :
    scene.machine.session.accepted =
      scene.machine.session.begun ++ scene.machine.session.queue.events := by
  obtain ⟨discarded, held, only_told⟩ := unfolds.held
  obtain rfl : discarded = [] := by
    by_contra some
    exact absurd (notTold.symm.trans (only_told some)) nofun
  rw [held, List.append_nil]

/-- The worker of a running machine has not been told to stop. -/
theorem not_told_of_running (running : scene.machine.session.phase = .running) :
    scene.told = false := by
  by_contra isTold
  have stopped := unfolds.told_stopped (Bool.not_eq_false _ ▸ isTold)
  rw [running] at stopped
  contradiction

/-- The events are begun in the order of their numbers. -/
theorem begun_numbers_eq :
    scene.machine.session.begun.map Event.number =
      Word.following base scene.machine.session.begun.length := by
  obtain ⟨others, accepted_eq⟩ := unfolds.begun_isPrefix
  have numbers_eq := unfolds.numbered.numbers_eq
  rw [← accepted_eq, List.map_append, List.length_append, Word.following_append] at numbers_eq
  exact (List.append_inj numbers_eq (by simp)).1

/-- While a machine runs, the number of the last event is that of the events begun and the
events in the queue. -/
theorem number_eq_of_running (running : scene.machine.session.phase = .running) :
    scene.machine.session.number =
      base + UInt64.ofNat scene.machine.session.begun.length +
        UInt64.ofNat scene.machine.session.queue.events.length := by
  rw [unfolds.numbered.number_eq,
    unfolds.accepted_eq_of_not_told (unfolds.not_told_of_running running), List.length_append,
    UInt64.ofNat_add, UInt64.add_assoc]

variable (opens : opening.Opens definition base)

include opens

/-- A worker that waits for its next task in a running machine has counted all events that
it has begun. -/
theorem count_eq_of_idle
    (idle : scene.hand = none)
    (running : scene.machine.session.phase = .running) :
    scene.machine.session.published.metadata.count =
      base + UInt64.ofNat scene.machine.session.begun.length := by
  have notTold := unfolds.not_told_of_running running
  have begun_eq := unfolds.begun_eq
  have stage := unfolds.stage
  rw [unfolds.shown_eq, unfolds.deeds_eq, begun_eq]
  rw [idle, notTold] at stage
  rw [underway, idle]
  generalize scene.machine.worker = worker at stage
  cases stage with
  | idle opened handles =>
      rw [Chronicle.deeds, List.append_nil, Session.shownAfter_append,
        opens.shownAfter_eq opened, handles.shownAfter_eq, List.append_nil, List.length_map,
        ← opens.count_eq opened, ← handles.count_eq]
      rfl

/-- The event in the hand of a worker is the next one to be counted, until it has been
counted and published. -/
theorem count_of_underway
    (forest : definition.graph.IsForest)
    (fits : definition.table.Fits definition.graph)
    {event : Event τ}
    {work : Work κ τ ω (Worker κ)}
    (busy : scene.hand = some (.event event, work)) :
    ∃ earlier deeds worker,
      scene.machine.session.deeds = earlier ++ .began event :: deeds ∧
        (Work.process definition worker event).Leads deeds work ∧
        ((∀ deed ∈ deeds, deed.published? = none) ∧
            scene.machine.session.published.metadata.count + 1 = event.number ∨
          (∃ deed ∈ deeds, deed.published? ≠ none) ∧
            scene.machine.session.published.metadata.count = event.number) := by
  have numbers_eq := unfolds.begun_numbers_eq
  have stage := unfolds.stage
  rw [unfolds.begun_eq, underway, busy] at numbers_eq
  rw [busy] at stage
  rw [unfolds.shown_eq, unfolds.deeds_eq]
  obtain ⟨opened, first, accounts, worker, deeds, rfl, opened_by, handles, leads⟩ :=
    stage.of_event
  have number_eq : event.number = worker.metadata.count + 1 := by
    simp only [List.map_append, List.map_singleton, List.length_append, List.length_map,
      List.length_singleton, Word.following_concat] at numbers_eq
    rw [(List.append_singleton_inj.mp numbers_eq).2, handles.count_eq,
      opens.count_eq opened_by]
  obtain ⟨rest, after, performs⟩ := leads.exists_performs scene.machine.session
  obtain ⟨account, isRight, _, rfl, deeds_eq, _⟩ :=
    Work.exists_account_of_performs_process forest fits performs
  refine ⟨_, deeds, account.before, rfl, leads, ?_⟩
  rw [Chronicle.deeds, Session.shownAfter_append, Session.shownAfter_append,
    opens.shownAfter_eq opened_by, handles.shownAfter_eq, number_eq]
  rcases isRight.shownAfter_of_isPrefix ⟨rest, deeds_eq.symm⟩
    (account.before.snapshot definition) with ⟨uncounted, shown_eq⟩ | ⟨counted, shown_eq⟩
  · exact .inl ⟨uncounted, congrArg (·.metadata.count + 1) shown_eq⟩
  · exact .inr ⟨counted, congrArg (·.metadata.count) shown_eq⟩

end Unfolds

/-- A worker that has been told to stop begins no event by the next move. -/
theorem begun_apply_of_told
    {scene : Scene κ τ ω}
    (begun : scene.machine.session.phase ≠ .created)
    (isTold : scene.told = true)
    (move : Move κ τ ω) :
    (scene.apply move).machine.session.begun = scene.machine.session.begun ∧
      (scene.apply move).told = true := by
  cases move with
  | operation operation =>
      by_cases byWorker : operation = .advance
      · subst byWorker
        rw [apply, advance]
        split
        · rw [takeUp]
          split
          · exact ⟨rfl, isTold⟩
          · rw [if_pos isTold]
            obtain ⟨_, _, _, _, begun_eq, _⟩ := scene.machine.close_keeps
            exact ⟨begun_eq, isTold⟩
        · exact ⟨rfl, isTold⟩
        · rename_i work _ _
          obtain ⟨_, _, proceeds⟩ := work.leads_step scene.machine.session
          exact ⟨proceeds.begun_eq, isTold⟩
      · rw [scene.apply_of_ne_advance byWorker]
        exact ⟨(Machine.proceeds_apply begun byWorker).1.begun_eq, isTold⟩
  | tell => exact ⟨rfl, by simp [apply, isTold]⟩

/-- A worker that has been told to stop begins no event any more. -/
theorem Unfolds.begun_perform_of_told
    {definition : Definition κ τ ω}
    {opening : Work κ τ ω (Worker κ)}
    {base : UInt64}
    {blank : Snapshot κ}
    {scene : Scene κ τ ω}
    {chronicle : Chronicle κ τ ω}
    (unfolds : scene.Unfolds definition opening base blank chronicle)
    (forest : definition.graph.IsForest)
    (fits : definition.table.Fits definition.graph)
    (isTold : scene.told = true)
    (moves : List (Move κ τ ω)) :
    (scene.perform moves).machine.session.begun = scene.machine.session.begun := by
  induction moves generalizing scene chronicle with
  | nil => rfl
  | cons move moves inductionHypothesis =>
      obtain ⟨begun_eq, staysTold⟩ := begun_apply_of_told unfolds.begun isTold move
      obtain ⟨_, unfolds⟩ := unfolds.apply forest fits move
      exact (inductionHypothesis unfolds staysTold).trans begun_eq

end Scene

/-! ## Courses -/

namespace Course

variable {definition : Definition κ τ ω}

/-- The numbers at the end of a course as ordinary numbers, among which none is the
greatest. -/
structure CountsUp (course : Course definition) : Prop where
  /-- The accepted events are numbered from the base on without gaps. -/
  accepted_eq : course.scene.machine.session.accepted.map Event.sequence =
    List.range' (course.beginning.base.toNat + 1) course.scene.machine.session.accepted.length
  /-- The number of the last accepted event is known. -/
  last_eq : course.scene.machine.session.number.toNat =
    course.beginning.base.toNat + course.scene.machine.session.accepted.length
  /-- The numbers of the events that are begun follow each other from the base on. -/
  begun_eq : course.scene.machine.session.begun.map Event.sequence =
    List.range' (course.beginning.base.toNat + 1) course.scene.machine.session.begun.length
  /-- An event in hand that is not yet counted has the number behind that of the events
  counted. -/
  underway {event : Event τ} {work : Work κ τ ω (Worker κ)} :
    course.scene.hand = some (.event event, work) →
      course.scene.machine.snapshot.metadata.count + 1 = event.number →
      course.scene.machine.snapshot.metadata.processed + 1 = event.sequence
  /-- While a machine runs and its worker waits for the next task, the accepted events that
  have not been counted wait in the queue. -/
  idle :
    course.scene.hand = none → course.scene.machine.session.phase = .running →
      course.scene.machine.session.number.toNat =
        course.scene.machine.snapshot.metadata.processed +
          course.scene.machine.session.queue.events.length

/-- The order of events at the end of a course. The base is the number of the last event
before the beginning, which is zero after a start. Numbers are machine words, and behind the
greatest one comes zero. -/
structure IsOrderly (course : Course definition) : Prop where
  /-- The accepted events are numbered from the base on without gaps, and the number of the
  last one is known. -/
  numbered : course.scene.machine.session.IsNumbered course.beginning.base
  /-- The next event that anyone fires is accepted under the next number, or rejected. -/
  admits (event : Event τ) : course.scene.machine.session.Admits event
  /-- Only accepted events are begun, in the order in which they were accepted. -/
  begun_isPrefix :
    course.scene.machine.session.begun <+: course.scene.machine.session.accepted
  /-- The numbers of the events that are begun follow each other from the base on. -/
  begun_numbers_eq : course.scene.machine.session.begun.map Event.number =
    Word.following course.beginning.base course.scene.machine.session.begun.length
  /-- Each event but the one in hand has been processed to its end before the next one was
  begun. All notifications of an event are among the deeds of its account. -/
  completed : ∃ chronicle : Chronicle κ τ ω,
    course.scene.machine.session.deeds = chronicle.deeds definition ∧
      course.scene.machine.session.begun =
        chronicle.accounts.map Account.event ++ course.scene.underway ∧
      ∀ account ∈ chronicle.accounts,
        (Work.process definition account.before account.event).Performs
          (account.deeds definition) (account.after definition)
  /-- The event in hand has the number behind that of the events counted, until it has been
  counted itself. -/
  underway {event : Event τ} {work : Work κ τ ω (Worker κ)} :
    course.scene.hand = some (.event event, work) →
      ∃ earlier deeds worker,
        course.scene.machine.session.deeds = earlier ++ .began event :: deeds ∧
          (Work.process definition worker event).Leads deeds work ∧
          ((∀ deed ∈ deeds, deed.published? = none) ∧
              course.scene.machine.snapshot.metadata.count + 1 = event.number ∨
            (∃ deed ∈ deeds, deed.published? ≠ none) ∧
              course.scene.machine.snapshot.metadata.count = event.number)
  /-- While a machine runs and its worker opens, the accepted events wait in the queue. -/
  opening {work : Work κ τ ω (Worker κ)} :
    course.scene.hand = some (.opening, work) →
      course.scene.machine.session.phase = .running →
      course.scene.machine.session.number =
        course.beginning.base +
          UInt64.ofNat course.scene.machine.session.queue.events.length
  /-- While a machine runs and its worker waits for the next task, the accepted events that
  have not been counted wait in the queue. -/
  idle :
    course.scene.hand = none → course.scene.machine.session.phase = .running →
      course.scene.machine.session.number =
        course.scene.machine.snapshot.metadata.count +
          UInt64.ofNat course.scene.machine.session.queue.events.length
  /-- As long as there are numbers left, they are those of ordinary counting. -/
  countsUp :
    course.beginning.base.toNat + course.scene.machine.session.accepted.length < Word.bound64 →
      course.CountsUp
  /-- After the word to stop no event is begun, whatever happens. -/
  told : course.scene.told = true → ∀ moves : List (Move κ τ ω),
    (course.scene.perform moves).machine.session.begun =
      course.scene.machine.session.begun

/-- As long as there are numbers left, the numbers of a machine are those of ordinary
counting. -/
theorem countsUp
    {opening : Work κ τ ω (Worker κ)}
    {blank : Snapshot κ}
    {chronicle : Chronicle κ τ ω}
    {course : Course definition}
    (unfolds : course.scene.Unfolds definition opening course.beginning.base blank chronicle)
    (opens : opening.Opens definition course.beginning.base)
    (few : course.beginning.base.toNat + course.scene.machine.session.accepted.length <
      Word.bound64) :
    course.CountsUp := by
  have notMore := unfolds.begun_isPrefix.length_le
  have fewBegun : course.beginning.base.toNat + course.scene.machine.session.begun.length <
      Word.bound64 := by omega
  have begun_eq := Event.map_sequence_eq unfolds.begun_numbers_eq fewBegun
  exact {
    accepted_eq := Event.map_sequence_eq unfolds.numbered.numbers_eq few
    last_eq := by rw [unfolds.numbered.number_eq, Word.toNat_add_ofNat few]
    begun_eq
    underway := by
      intro event work busy next
      have begun : event ∈ course.scene.machine.session.begun := by
        rw [unfolds.begun_eq, Scene.underway, busy]
        simp
      have within := List.mem_map_of_mem (f := Event.sequence) begun
      rw [begun_eq, List.mem_range'_1] at within
      -- The numbers begin behind the base, so none of them is zero.
      have positive : 0 < event.sequence := Nat.zero_lt_of_lt within.1
      exact Word.toNat_succ_of_pos next positive
    idle := by
      intro idle running
      rw [unfolds.numbered.number_eq, Word.toNat_add_ofNat few,
        unfolds.accepted_eq_of_not_told (unfolds.not_told_of_running running),
        List.length_append, ← Nat.add_assoc, ← Word.toNat_add_ofNat fewBegun,
        ← unfolds.count_eq_of_idle opens idle running]
      rfl }

/-- Whatever happens in the course of time, events are accepted, begun and counted in
order. What happens to a machine whose worker is not interrupted is one of the courses. -/
theorem isOrderly
    {draft : MachineDraft κ τ ω}
    (built : draft.build = .ok definition) :
    (∀ run : Run definition, ∃ course : Course definition,
      course.beginning = run.beginning ∧ course.scene = run.machine.scene) ∧
      ∀ course : Course definition, course.IsOrderly := by
  have forest := (Definition.isWellFormed_of_build built).forest
  have fits := Definition.fits_of_build built
  refine ⟨fun run => run.exists_course, fun course => ?_⟩
  obtain ⟨opening, chronicle, opens, unfolds⟩ := course.exists_unfolds built
  exact {
    numbered := unfolds.numbered
    admits := fun event => Session.admits _ event
    begun_isPrefix := unfolds.begun_isPrefix
    begun_numbers_eq := unfolds.begun_numbers_eq
    completed := by
      refine ⟨chronicle, unfolds.deeds_eq, unfolds.begun_eq, fun account member => ?_⟩
      obtain ⟨earlier, later, split⟩ := List.append_of_mem member
      obtain ⟨_, _, _, _, performs⟩ := unfolds.stage.of_split split
      exact performs
    underway := unfolds.count_of_underway opens forest fits
    opening := by
      intro work opens running
      have stage := unfolds.stage
      have begun_eq := unfolds.begun_eq
      rw [opens] at stage
      obtain ⟨opened, rfl, _⟩ := stage.of_opening
      rw [Scene.underway, opens] at begun_eq
      rw [unfolds.number_eq_of_running running, begun_eq]
      exact congrArg (· + _) (UInt64.add_zero _)
    idle := by
      intro idle running
      rw [unfolds.number_eq_of_running running,
        ← unfolds.count_eq_of_idle opens idle running]
      rfl
    countsUp := countsUp unfolds opens
    told := unfolds.begun_perform_of_told forest fits }

end Course
end Order

/-! ## An example -/

namespace Course

open Run (crossing crossingDraft midnight)

/-- A machine with one place in its queue. On entering one of its states it queues an
event. -/
def narrowDraft : MachineDraft String String Unit :=
  let echo : StateAction String String Unit :=
    ⟨fun world => .fire (.new .nil "back") fun _ => .done (.returned (.ok ()), world)⟩
  { crossingDraft [] with
    blueprint := (crossingDraft []).blueprint.onEntry "loud" echo
    settings := Settings.standard.withQueueCapacity 1 }

/-- What the draft describes. -/
def narrow : Definition String String Unit :=
  { crossing [] with
    hooks := narrowDraft.blueprint.hooks
    settings := Settings.standard.withQueueCapacity 1 }

/-- Some requests of the worker. -/
def requests (count : Nat) : List (Move String String Unit) :=
  List.replicate count (.operation .advance)

/-- A course in which the queue is full when a callback fires, and a caller stops the machine
before the second event is begun. -/
def crowded : Course narrow where
  clock := midnight
  world := ()
  beginning := .start
  first :=
    let machine := Machine.new narrow midnight ()
    Scene.launched machine 0 (Work.enterInitial narrow machine.freshWorker)
  accepted := rfl
  moves :=
    requests 6 ++ .operation (.fire (.new .nil "cross")) :: requests 4 ++
      .operation (.fire (.new .nil "cross")) :: requests 8 ++
      .operation .requestStop :: requests 2 ++ .tell :: requests 20

/-- The event that the callback fires is refused, and the second event is thrown away. -/
theorem isOrderly_crowded :
    narrowDraft.build = .ok narrow ∧
      crowded.scene.machine.session.accepted.map Event.number = [1, 2] ∧
      crowded.scene.machine.session.number = 2 ∧
      crowded.scene.machine.session.begun.map Event.number = [1] ∧
      crowded.scene.told = true ∧
      crowded.scene.machine.worker.isSome = false ∧
      crowded.IsOrderly := by
  have built : narrowDraft.build = .ok narrow := by cbv
  exact ⟨built, by cbv, by cbv, by cbv, by cbv, by cbv, (isOrderly built).2 crowded⟩

end Course
end Statechart
