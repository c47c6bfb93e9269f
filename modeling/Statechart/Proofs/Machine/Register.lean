import Mathlib.Data.List.Perm.Basic
import Mathlib.Logic.Relation
import Statechart.Proofs.Machine.Lobby

/-!
# The register of callers

Little of a machine matters to the callers who wait: the queue, who has asked, what was
answered, and how far the events have come. Each step of a caller or of the worker changes
the register in one of a few ways. Every caller is in one place, and a marker is only
answered after the events in front of it.
-/

namespace Statechart

variable {κ τ ω : Type}

/-! ## Queues -/

namespace Queue

/-- The callers in a queue: those with a marker, those with a reserved place, and those in
line. -/
def callers (queue : Queue τ) : List Nat :=
  queue.markers ++ queue.reserved ++ queue.waiting

/-- The queue with more events at the end. -/
def receive (queue : Queue τ) (events : List (Event τ)) : Queue τ :=
  { queue with items := queue.items ++ events.map .event }

/-- The command stands in front of the marker of a caller if the commands before it do. -/
def isAhead (ticket : Nat) : Command τ → Bool
  | .event _ => true
  | .marker other => other != ticket

/-- The events in front of the first marker of a caller. -/
def ahead (queue : Queue τ) (ticket : Nat) : List (Event τ) :=
  Queue.events { queue with items := queue.items.takeWhile (isAhead ticket) }

variable {queue rest : Queue τ} {ticket : Nat}

theorem receive_nil (queue : Queue τ) : queue.receive [] = queue := by
  simp [receive]

@[simp] theorem events_receive (queue : Queue τ) (events : List (Event τ)) :
    (queue.receive events).events = queue.events ++ events := by
  simp [receive, Queue.events, List.filterMap_map]

@[simp] theorem markers_receive (queue : Queue τ) (events : List (Event τ)) :
    (queue.receive events).markers = queue.markers := by
  simp [receive, markers, List.filterMap_map]

@[simp] theorem callers_receive (queue : Queue τ) (events : List (Event τ)) :
    (queue.receive events).callers = queue.callers := by
  rw [callers, markers_receive]
  rfl

@[simp] theorem callers_empty (capacity : Option Nat) : (empty capacity : Queue τ).callers = [] :=
  rfl

/-- Taking a command keeps the order of those who have no marker yet. -/
theorem reserved_append_waiting_of_pop?
    {command : Command τ}
    (popped : queue.pop? = some (command, rest)) :
    rest.reserved ++ rest.waiting = queue.reserved ++ queue.waiting := by
  unfold pop? at popped
  split at popped
  · contradiction
  · split at popped
    · cases popped
      rfl
    · rename_i waits
      cases popped
      simp [waits]

theorem capacity_of_pop?
    {command : Command τ}
    (popped : queue.pop? = some (command, rest)) :
    rest.capacity = queue.capacity := by
  unfold pop? at popped
  split at popped
  · contradiction
  · split at popped
    · cases popped
      rfl
    · cases popped
      rfl

/-- An event that is taken leaves the callers in the queue. -/
theorem callers_of_pop?_event
    {event : Event τ}
    (popped : queue.pop? = some (.event event, rest)) :
    rest.callers = queue.callers := by
  have markers_eq : rest.markers = queue.markers := by
    rw [markers, markers, items_of_pop?_eq_some popped]
    rfl
  rw [callers, callers, List.append_assoc, List.append_assoc,
    reserved_append_waiting_of_pop? popped, markers_eq]

/-- A marker that is taken is that of the first caller in the queue. -/
theorem callers_of_pop?_marker (popped : queue.pop? = some (.marker ticket, rest)) :
    queue.callers = ticket :: rest.callers := by
  have markers_eq : queue.markers = ticket :: rest.markers := by
    rw [markers, markers, items_of_pop?_eq_some popped]
    rfl
  rw [callers, callers, List.append_assoc, List.append_assoc,
    reserved_append_waiting_of_pop? popped, markers_eq]
  rfl

/-- A caller who goes for a place is in the queue then. -/
theorem callers_enroll (queue : Queue τ) (ticket : Nat) :
    (queue.enroll ticket).callers.Perm (ticket :: queue.callers) := by
  unfold enroll
  split
  · rename_i larger pushed
    have reserved_eq : larger = { queue with items := queue.items ++ [.marker ticket] } := by
      rw [push?] at pushed
      split at pushed
      · contradiction
      · exact (Option.some.inj pushed).symm
    subst reserved_eq
    simp only [callers, markers, List.filterMap_append, List.append_assoc]
    exact List.perm_middle
  · simp only [callers, markers, ← List.append_assoc]
    exact List.perm_append_singleton ticket _

/-- A caller who has a turn stays in the queue. -/
theorem callers_place (queue : Queue τ) (ticket : Nat) :
    (queue.place ticket).callers.Perm queue.callers := by
  unfold place
  split
  · rename_i hasPlace
    simp only [callers, markers, List.filterMap_append, List.append_assoc]
    exact .append_left _ (.append_right _ (List.perm_cons_erase hasPlace).symm)
  · exact .refl _

/-- Everybody in a queue that is closed is turned down. -/
theorem map_fst_turnedDown (queue : Queue τ) :
    (queue.turnedDown.map Prod.fst).Perm queue.callers := by
  rw [turnedDown, List.map_reverse]
  refine (List.reverse_perm _).trans (.of_eq ?_)
  simp [callers, Function.comp_def]

theorem of_mem_turnedDown
    {answer : Nat × Except MachineError Unit}
    (listed : answer ∈ queue.turnedDown) :
    answer.2 = .error .stopped ∨ answer.2 = .error .notRunning := by
  rw [turnedDown, List.mem_reverse, List.mem_append, List.mem_map, List.mem_map] at listed
  rcases listed with ⟨_, _, rfl⟩ | ⟨_, _, rfl⟩
  · exact .inl rfl
  · exact .inr rfl

/-! ## The events in front of a marker -/

/-- A caller without a marker finds every command in front of its next marker. -/
theorem isAhead_of_not_mem_markers
    (absent : ticket ∉ queue.markers) :
    ∀ command ∈ queue.items, isAhead ticket command = true := by
  intro command listed
  cases command with
  | event event => rfl
  | marker other =>
      rw [isAhead, bne_iff_ne]
      rintro rfl
      exact absent (List.mem_filterMap.mpr ⟨.marker other, listed, rfl⟩)

/-- What comes behind the marker of a caller changes nothing in front of it. -/
theorem ahead_eq_of_mem_markers
    (present : ticket ∈ queue.markers)
    {more : List (Command τ)}
    (items_eq : rest.items = queue.items ++ more) :
    rest.ahead ticket = queue.ahead ticket := by
  obtain ⟨command, listed, isMarker⟩ := List.mem_filterMap.mp present
  have found : ¬ ∀ command ∈ queue.items, isAhead ticket command = true := by
    intro all
    have isAhead_eq := all command listed
    cases command with
    | event event => contradiction
    | marker other =>
        cases isMarker
        simp [isAhead] at isAhead_eq
  simp only [ahead, Queue.events]
  rw [items_eq, List.takeWhile_append, if_neg]
  intro whole
  exact found (List.takeWhile_eq_self_iff.mp ((List.takeWhile_prefix _).eq_of_length whole))

/-- The first marker of a caller is put behind all events. -/
theorem ahead_eq_events
    (absent : ticket ∉ queue.markers)
    (items_eq : rest.items = queue.items ++ [.marker ticket]) :
    rest.ahead ticket = queue.events := by
  have whole := List.takeWhile_eq_self_iff.mpr (isAhead_of_not_mem_markers absent)
  simp only [ahead, Queue.events]
  rw [items_eq, List.takeWhile_append, whole]
  simp [isAhead]

/-- A queue has been given at most one marker. -/
def GivenMarker (queue rest : Queue τ) : Prop :=
  rest.items = queue.items ∨ ∃ ticket, rest.items = queue.items ++ [.marker ticket]

theorem givenMarker_enroll (queue : Queue τ) (ticket : Nat) :
    queue.GivenMarker (queue.enroll ticket) := by
  unfold enroll
  split
  · rename_i pushed
    exact .inr ⟨ticket, items_of_push?_eq_some pushed⟩
  · exact .inl rfl

theorem givenMarker_place (queue : Queue τ) (ticket : Nat) :
    queue.GivenMarker (queue.place ticket) := by
  unfold place
  split
  · exact .inr ⟨ticket, rfl⟩
  · exact .inl rfl

end Queue

/-! ## Registers -/

/-- What matters to callers who wait. -/
@[ext]
structure Register (τ : Type) where
  queue : Queue τ
  /-- Who has asked but not gone for a place in the queue yet. -/
  asking : List Nat
  /-- How many callers have asked. -/
  tickets : Nat
  /-- What callers were answered, the latest first. -/
  answers : List (Nat × Except MachineError Unit)
  /-- The events that have been accepted. -/
  accepted : List (Event τ)
  /-- The events that have been begun. -/
  begun : List (Event τ)
  /-- The events that have been processed to their ends. -/
  completed : List (Event τ)
  /-- Where the worker is. -/
  position : Position
  /-- Whether the worker has been told to stop. -/
  told : Bool

namespace Register

/-- What can become of a register by one step of a caller or of the worker. -/
inductive Next (register : Register τ) : Register τ → Prop
  /-- Events are accepted. -/
  | receive (events : List (Event τ)) :
      Next register
        { register with
          queue := register.queue.receive events
          accepted := register.accepted ++ events }
  /-- The worker is told to stop. -/
  | tell : Next register { register with told := true }
  /-- The worker has opened or finished an event. -/
  | rest (goesOn : register.position ≠ .closed) :
      Next register { register with completed := register.begun, position := .idle }
  /-- The worker begins an event. -/
  | begin
      {event : Event τ}
      {rest : Queue τ}
      (idle : register.position = .idle)
      (popped : register.queue.pop? = some (.event event, rest)) :
      Next register
        { register with queue := rest, begun := register.begun ++ [event], position := .busy }
  /-- The worker comes to a marker. -/
  | answer
      {ticket : Nat}
      {rest : Queue τ}
      (idle : register.position = .idle)
      (notTold : register.told = false)
      (popped : register.queue.pop? = some (.marker ticket, rest)) :
      Next register
        { register with queue := rest, answers := (ticket, .ok ()) :: register.answers }
  /-- The worker closes the queue for good. -/
  | close
      (idle : register.position = .idle)
      (isTold : register.told = true) :
      Next register
        { register with
          queue := Queue.empty register.queue.capacity
          answers := register.queue.turnedDown ++ register.answers
          position := .closed }
  /-- A caller asks. -/
  | ask :
      Next register
        { register with
          asking := register.asking ++ [register.tickets]
          tickets := register.tickets + 1 }
  /-- A caller who has asked goes for a place. -/
  | send
      {ticket : Nat}
      (asks : ticket ∈ register.asking)
      (goesOn : register.position ≠ .closed) :
      Next register
        { register with
          queue := register.queue.enroll ticket
          asking := register.asking.erase ticket }
  /-- A caller who has asked is turned down. -/
  | refuse
      {ticket : Nat}
      (asks : ticket ∈ register.asking)
      (closed : register.position = .closed) :
      Next register
        { register with
          asking := register.asking.erase ticket
          answers := (ticket, .error .notRunning) :: register.answers }
  /-- A caller with a reserved place has a turn. -/
  | place (ticket : Nat) :
      Next register { register with queue := register.queue.place ticket }

/-- The register is in order. -/
structure IsKept (register : Register τ) : Prop where
  /-- Every caller is in one place, once. -/
  callers_perm :
    (register.queue.callers ++ register.asking ++ register.answers.map Prod.fst).Perm
      (List.range register.tickets)
  /-- Nobody waits in a closed queue. -/
  nobody_waits : register.position = .closed → register.queue.callers = []
  /-- A worker closes its queue after it has been told to stop. -/
  told : register.position = .closed → register.told = true
  /-- Before the worker is told the accepted events have been begun, or they wait. -/
  accepted_eq : register.told = false →
    register.accepted = register.begun ++ register.queue.events
  /-- While the worker opens nobody is answered. -/
  unanswered : register.position = .opening → register.answers = []
  /-- Events are processed to their ends after they have begun. -/
  completed_isPrefix : register.completed <+: register.begun
  /-- Between two events all that have been begun have been processed. -/
  completed_eq : register.position = .idle → register.completed = register.begun

variable {register after : Register τ} {events : List (Event τ)} {ticket : Nat}

/-- Every caller stays in one place, whoever moves. -/
theorem Next.callers_perm
    (next : register.Next after)
    (before : (register.queue.callers ++ register.asking ++ register.answers.map Prod.fst).Perm
      (List.range register.tickets)) :
    (after.queue.callers ++ after.asking ++ after.answers.map Prod.fst).Perm
      (List.range after.tickets) := by
  cases next with
  | receive events => simpa using before
  | tell => exact before
  | rest _ => exact before
  | begin _ popped =>
      rw [← Queue.callers_of_pop?_event popped] at before
      exact before
  | answer _ _ popped =>
      rw [Queue.callers_of_pop?_marker popped] at before
      exact List.perm_middle.trans before
  | close _ _ =>
      refine .trans ?_ before
      simp only [Queue.callers_empty, List.nil_append, List.map_append]
      refine (List.perm_append_comm_assoc _ _ _).trans ?_
      rw [List.append_assoc]
      exact .append_right _ register.queue.map_fst_turnedDown
  | ask =>
      rw [List.range_succ]
      refine .trans ?_ (.append_right _ before)
      simp only [List.append_assoc]
      exact .append_left _ (.append_left _ List.perm_append_comm)
  | @send ticket asks _ =>
      refine .trans ?_ before
      simp only [List.append_assoc]
      refine (List.Perm.append_right _ (Queue.callers_enroll _ _)).trans ?_
      refine (List.perm_middle (a := ticket)).symm.trans (.append_left _ ?_)
      exact .append_right _ (List.perm_cons_erase asks).symm
  | refuse asks _ =>
      refine .trans ?_ before
      simp only [List.append_assoc, List.map_cons]
      refine .append_left _ (List.perm_middle.trans ?_)
      exact .append_right _ (List.perm_cons_erase asks).symm
  | place ticket =>
      refine .trans ?_ before
      exact .append_right _ (.append_right _ (Queue.callers_place _ _))

/-- A register stays in order. -/
theorem IsKept.next (kept : register.IsKept) (next : register.Next after) : after.IsKept := by
  have callers_perm := next.callers_perm kept.callers_perm
  cases next with
  | receive events =>
      exact { kept with
        callers_perm
        nobody_waits := by simpa using kept.nobody_waits
        accepted_eq := by
          intro notTold
          simp only
          rw [Queue.events_receive, kept.accepted_eq notTold, List.append_assoc] }
  | tell => exact { kept with told := fun _ => rfl, accepted_eq := by rintro ⟨⟩ }
  | rest goesOn =>
      exact { kept with
        nobody_waits := by rintro ⟨⟩
        told := by rintro ⟨⟩
        unanswered := by rintro ⟨⟩
        completed_isPrefix := List.prefix_refl _
        completed_eq := fun _ => rfl }
  | begin idle popped =>
      exact { kept with
        callers_perm
        nobody_waits := by rintro ⟨⟩
        told := by rintro ⟨⟩
        accepted_eq := by
          intro notTold
          rw [kept.accepted_eq notTold, Queue.events, Queue.items_of_pop?_eq_some popped,
            List.append_assoc]
          rfl
        unanswered := by rintro ⟨⟩
        completed_isPrefix := kept.completed_isPrefix.trans (List.prefix_append _ _)
        completed_eq := by rintro ⟨⟩ }
  | answer idle notTold popped =>
      exact { kept with
        callers_perm
        nobody_waits := fun closed => by cases idle.symm.trans closed
        accepted_eq := by
          intro _
          rw [kept.accepted_eq notTold, Queue.events, Queue.items_of_pop?_eq_some popped]
          rfl
        unanswered := fun opens => by cases idle.symm.trans opens }
  | close idle isTold =>
      exact { kept with
        callers_perm
        nobody_waits := fun _ => rfl
        told := fun _ => isTold
        accepted_eq := fun notTold => by cases isTold.symm.trans notTold
        unanswered := by rintro ⟨⟩
        completed_eq := by rintro ⟨⟩ }
  | ask => exact { kept with callers_perm }
  | send asks goesOn =>
      exact { kept with
        callers_perm
        nobody_waits := fun closed => absurd closed goesOn
        accepted_eq := by simpa using kept.accepted_eq }
  | refuse asks closed =>
      exact { kept with
        callers_perm
        unanswered := fun opens => by cases closed.symm.trans opens }
  | place ticket =>
      exact { kept with
        callers_perm
        nobody_waits := by
          intro closed
          have nobody := Queue.callers_place register.queue ticket
          rw [kept.nobody_waits closed] at nobody
          exact nobody.eq_nil
        accepted_eq := by simpa using kept.accepted_eq }

/-- The caller with the number was promised an answer after some events. -/
structure Promises
    (events : List (Event τ))
    (ticket : Nat)
    (register : Register τ) : Prop where
  /-- The events have been accepted. -/
  accepted : events <+: register.accepted
  /-- The events that have not been begun stand in front of the marker. -/
  ahead : register.told = false → ticket ∈ register.queue.markers →
    events <+: register.begun ++ register.queue.ahead ticket
  /-- The answer comes after the events have been processed to their ends. -/
  answered : (ticket, .ok ()) ∈ register.answers → events <+: register.completed

/-- A marker is put behind the events that have been accepted. -/
theorem Promises.ahead_of_givenMarker
    (promises : register.Promises events ticket)
    (kept : register.IsKept)
    {queue : Queue τ}
    (given : register.queue.GivenMarker queue)
    (notTold : register.told = false)
    (marked : ticket ∈ queue.markers) :
    events <+: register.begun ++ queue.ahead ticket := by
  rcases given with items_eq | ⟨other, items_eq⟩
  · rw [Queue.markers, items_eq] at marked
    rw [Queue.ahead, items_eq]
    exact promises.ahead notTold marked
  · by_cases before : ticket ∈ register.queue.markers
    · rw [Queue.ahead_eq_of_mem_markers before items_eq]
      exact promises.ahead notTold before
    · rw [Queue.markers, items_eq, List.filterMap_append, List.mem_append] at marked
      obtain rfl : ticket = other := List.mem_singleton.mp (marked.resolve_left before)
      rw [Queue.ahead_eq_events before items_eq, ← kept.accepted_eq notTold]
      exact promises.accepted

/-- A promise is kept where a caller is answered, be it this one or another. -/
theorem Promises.answer
    (promises : register.Promises events ticket)
    (kept : register.IsKept)
    {other : Nat}
    {rest : Queue τ}
    (idle : register.position = .idle)
    (notTold : register.told = false)
    (popped : register.queue.pop? = some (.marker other, rest)) :
    Promises events ticket
      { register with queue := rest, answers := (other, .ok ()) :: register.answers } := by
  have items_eq := Queue.items_of_pop?_eq_some popped
  have before := promises.ahead notTold
  rw [Queue.markers, items_eq] at before
  rw [Queue.ahead, items_eq] at before
  by_cases same : other = ticket
  · -- Nothing stands in front of the marker, so the events have begun.
    have begun : events <+: register.begun := by
      subst same
      simpa [Queue.isAhead, Queue.events] using before
    exact
      { accepted := promises.accepted
        ahead := fun _ _ => begun.trans (List.prefix_append _ _)
        answered := fun _ => by rw [kept.completed_eq idle]; exact begun }
  · exact
      { accepted := promises.accepted
        ahead := by
          intro _ marked
          rw [List.takeWhile_cons_of_pos (by simpa [Queue.isAhead] using same)] at before
          exact before (List.mem_cons_of_mem _ marked)
        answered := by
          intro answered
          rcases List.mem_cons.mp answered with new | old
          · exact absurd (congrArg Prod.fst new).symm same
          · exact promises.answered old }

/-- A promise is kept by every step. -/
theorem Promises.next
    (promises : register.Promises events ticket)
    (kept : register.IsKept)
    (next : register.Next after) :
    after.Promises events ticket := by
  cases next with
  | receive more =>
      exact { promises with
        accepted := promises.accepted.trans (List.prefix_append _ _)
        ahead := by
          intro notTold marked
          rw [Queue.markers_receive] at marked
          rw [Queue.ahead_eq_of_mem_markers marked rfl]
          exact promises.ahead notTold marked }
  | tell => exact { promises with ahead := by rintro ⟨⟩ }
  | rest _ =>
      exact { promises with
        answered := fun answered => (promises.answered answered).trans kept.completed_isPrefix }
  | begin idle popped =>
      exact { promises with
        ahead := by
          intro notTold marked
          rw [List.append_assoc]
          have items_eq := Queue.items_of_pop?_eq_some popped
          have before := promises.ahead notTold
          rw [Queue.markers, items_eq] at before
          rw [Queue.ahead, items_eq] at before
          exact before marked }
  | answer idle notTold popped => exact promises.answer kept idle notTold popped
  | close idle isTold =>
      exact { promises with
        ahead := fun notTold => by cases isTold.symm.trans notTold
        answered := by
          intro answered
          rcases List.mem_append.mp answered with new | old
          · rcases Queue.of_mem_turnedDown new with stopped | notRunning <;> contradiction
          · exact promises.answered old }
  | ask => exact { promises with }
  | send _ _ =>
      exact { promises with
        ahead := promises.ahead_of_givenMarker kept (Queue.givenMarker_enroll _ _) }
  | refuse _ _ =>
      exact { promises with
        answered := by
          intro answered
          rcases List.mem_cons.mp answered with new | old
          · cases congrArg Prod.snd new
          · exact promises.answered old }
  | place _ =>
      exact { promises with
        ahead := promises.ahead_of_givenMarker kept (Queue.givenMarker_place _ _) }

/-- An answer that is given stays. After the worker has been told no good one is given. -/
theorem Next.exists_answers (next : register.Next after) :
    ∃ more, after.answers = more ++ register.answers ∧
      (register.told = true → after.told = true ∧ ∀ answer ∈ more,
        answer.2 = .error .stopped ∨ answer.2 = .error .notRunning) := by
  cases next with
  | tell => exact ⟨[], rfl, fun _ => ⟨rfl, nofun⟩⟩
  | answer _ notTold _ =>
      exact ⟨[_], rfl, fun isTold => absurd (isTold.symm.trans notTold) nofun⟩
  | close _ isTold => exact ⟨_, rfl, fun _ => ⟨isTold, fun _ => Queue.of_mem_turnedDown⟩⟩
  | refuse _ _ =>
      refine ⟨[_], rfl, fun isTold => ⟨isTold, fun answer listed => ?_⟩⟩
      rw [List.mem_singleton.mp listed]
      exact .inr rfl
  | receive _ => exact ⟨[], rfl, fun isTold => ⟨isTold, nofun⟩⟩
  | rest _ => exact ⟨[], rfl, fun isTold => ⟨isTold, nofun⟩⟩
  | begin _ _ => exact ⟨[], rfl, fun isTold => ⟨isTold, nofun⟩⟩
  | ask => exact ⟨[], rfl, fun isTold => ⟨isTold, nofun⟩⟩
  | send _ _ => exact ⟨[], rfl, fun isTold => ⟨isTold, nofun⟩⟩
  | place _ => exact ⟨[], rfl, fun isTold => ⟨isTold, nofun⟩⟩

/-! ## Many steps -/

/-- What can become of a register in the course of time. -/
def Becomes (register after : Register τ) : Prop :=
  Relation.ReflTransGen Next register after

/-- Callers with reserved places may have their turns one after the other. -/
theorem becomes_foldl_place (register : Register τ) (tickets : List Nat) :
    register.Becomes { register with queue := tickets.foldl Queue.place register.queue } := by
  induction tickets generalizing register with
  | nil => exact .refl
  | cons ticket tickets inductionHypothesis =>
      exact .head (.place ticket) (inductionHypothesis _)

theorem IsKept.becomes (kept : register.IsKept) (becomes : register.Becomes after) :
    after.IsKept := by
  induction becomes with
  | refl => exact kept
  | tail _ next inductionHypothesis => exact inductionHypothesis.next next

theorem Promises.becomes
    (promises : register.Promises events ticket)
    (kept : register.IsKept)
    (becomes : register.Becomes after) :
    after.Promises events ticket := by
  induction becomes with
  | refl => exact promises
  | tail before next inductionHypothesis =>
      exact inductionHypothesis.next (kept.becomes before) next

theorem Becomes.exists_answers (becomes : register.Becomes after) :
    ∃ more, after.answers = more ++ register.answers ∧
      (register.told = true → after.told = true ∧ ∀ answer ∈ more,
        answer.2 = .error .stopped ∨ answer.2 = .error .notRunning) := by
  induction becomes with
  | refl => exact ⟨[], rfl, fun isTold => ⟨isTold, nofun⟩⟩
  | tail _ next inductionHypothesis =>
      obtain ⟨earlier, earlier_eq, told_earlier⟩ := inductionHypothesis
      obtain ⟨later, later_eq, told_later⟩ := next.exists_answers
      refine ⟨later ++ earlier, by rw [later_eq, earlier_eq, List.append_assoc], fun isTold => ?_⟩
      obtain ⟨stillTold, earlierBad⟩ := told_earlier isTold
      obtain ⟨stillTold, laterBad⟩ := told_later stillTold
      exact ⟨stillTold, fun answer listed =>
        (List.mem_append.mp listed).elim (laterBad answer) (earlierBad answer)⟩

/-- No caller is answered twice. -/
theorem IsKept.find?_answers_iff
    (kept : register.IsKept)
    {answer : Nat × Except MachineError Unit} :
    register.answers.find? (·.1 == ticket) = some answer ↔
      answer ∈ register.answers ∧ answer.1 = ticket := by
  have allDistinct := kept.callers_perm.nodup_iff.mpr List.nodup_range
  have distinct := (List.nodup_append.mp allDistinct).2.1
  constructor
  · intro found
    exact ⟨List.mem_of_find?_eq_some found, by simpa using List.find?_some found⟩
  · rintro ⟨listed, rfl⟩
    have some_listed : (register.answers.find? (·.1 == answer.1)).isSome :=
      List.find?_isSome.mpr ⟨answer, listed, beq_self_eq_true answer.1⟩
    obtain ⟨first, found⟩ := Option.isSome_iff_exists.mp some_listed
    have same : first.1 = answer.1 := by simpa using List.find?_some found
    rw [found, List.inj_on_of_nodup_map distinct (List.mem_of_find?_eq_some found) listed same]

/-- A caller who has not asked yet can be promised what has been accepted. -/
theorem IsKept.promises
    (kept : register.IsKept)
    (new : register.tickets ≤ ticket) :
    register.Promises register.accepted ticket := by
  have absent : ticket ∉ register.queue.callers ++ register.asking ++
      register.answers.map Prod.fst := by
    rw [kept.callers_perm.mem_iff, List.mem_range]
    exact Nat.not_lt.mpr new
  simp only [List.mem_append, not_or, Queue.callers] at absent
  exact
    { accepted := List.prefix_refl _
      ahead := fun _ marked => absurd marked absent.1.1.1.1
      answered := fun answered => absurd (List.mem_map_of_mem answered) absent.2 }

end Register
end Statechart
