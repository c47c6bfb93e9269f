import Statechart.Proofs.Machine.Steady
import Statechart.Proofs.Numbers

/-!
# The responses of a worker

A worker responds to the events it processes, one after the other. Accepted events are
numbered without gaps. The responses of a worker with steady callbacks are determined by
its first position and by what the events say under their numbers.
-/

namespace Statechart

variable {κ τ ω : Type}

/-! ## Numbers -/

/-- Events that say the same under the same numbers are the same without identities. -/
theorem Event.map_anonymous_eq
    {first second : List (Event τ)}
    (sameContents : first.map content = second.map content)
    (sameNumbers : first.map Event.number = second.map Event.number) :
    first.map anonymous = second.map anonymous := by
  have spelled_out (events : List (Event τ)) :
      events.map anonymous =
        List.zipWith (fun said number => ⟨Uuid.nil, said.1, said.2, none, number⟩)
          (events.map content) (events.map Event.number) := by
    rw [List.zipWith_map, List.zipWith_self]
    rfl
  rw [spelled_out first, spelled_out second, sameContents, sameNumbers]

namespace Session

/-- The accepted events are numbered without gaps, and the number of the last one is
known. -/
structure IsNumbered (base : UInt64) (session : Session κ τ ω) : Prop where
  /-- The number of the last event. -/
  number_eq : session.number = base + UInt64.ofNat session.accepted.length
  /-- There are no gaps. -/
  numbers_eq :
    session.accepted.map Event.number = Word.following base session.accepted.length

/-- As long as nothing has been accepted the base is the number of the last event. -/
theorem isNumbered_of_nothing
    {base : UInt64}
    {session : Session κ τ ω}
    (number_eq : session.number = base)
    (nothing : session.accepted = []) :
    session.IsNumbered base where
  number_eq := by
    rw [number_eq, nothing]
    exact (UInt64.add_zero _).symm
  numbers_eq := by
    rw [nothing]
    rfl

/-- Where nothing is accepted the numbers stay. -/
theorem IsNumbered.of_eq
    {base : UInt64}
    {before after : Session κ τ ω}
    (numbered : before.IsNumbered base)
    (number_eq : after.number = before.number)
    (accepted_eq : after.accepted = before.accepted) :
    after.IsNumbered base where
  number_eq := by rw [number_eq, accepted_eq, numbered.number_eq]
  numbers_eq := by rw [accepted_eq, numbered.numbers_eq]

/-- An accepted event gets the next number. -/
theorem IsNumbered.of_accepted
    {base : UInt64}
    {before after : Session κ τ ω}
    (numbered : before.IsNumbered base)
    {event : Event τ}
    (event_eq : event.number = before.number + 1)
    (number_eq : after.number = before.number + 1)
    (accepted_eq : after.accepted = before.accepted ++ [event]) :
    after.IsNumbered base where
  number_eq := by
    rw [number_eq, accepted_eq, numbered.number_eq, List.length_append, List.length_singleton,
      Word.add_ofNat_succ]
  numbers_eq := by
    rw [accepted_eq, List.map_append, numbered.numbers_eq, List.length_append,
      List.length_singleton, Word.following_concat, List.map_singleton, event_eq,
      numbered.number_eq]

/-- What becomes of an event that is fired: a machine that does not run turns it down, a full
queue has no place for it, or it is accepted under the next number. -/
theorem fire_outcome (session : Session κ τ ω) (event : Event τ) :
    (session.phase ≠ .running ∧ session.fire event = (.error .notRunning, session)) ∨
      (session.phase = .running ∧ session.queue.isFull = true ∧
        session.fire event = (.error (.queueFull (session.queue.capacity.getD 0)),
          session.note (.refused (event.numbered (session.number + 1))))) ∨
      session.phase = .running ∧ session.queue.isFull = false ∧
        ∃ queue,
          session.queue.push? (.event (event.numbered (session.number + 1))) = some queue ∧
            session.fire event = (.ok (),
              { session with queue, number := session.number + 1 }.note
                (.accepted (event.numbered (session.number + 1)))) := by
  unfold fire
  split
  · rename_i created
    exact .inl ⟨by simp [created], rfl⟩
  · rename_i stopped
    exact .inl ⟨by simp [stopped], rfl⟩
  · rename_i running
    simp only
    split
    · rename_i queue pushed
      refine .inr (.inr ⟨running, ?_, queue, pushed, rfl⟩)
      rw [Bool.eq_false_iff, Ne, ← Queue.push?_eq_none_iff, pushed]
      nofun
    · rename_i refused
      exact .inr (.inl ⟨running, (Queue.push?_eq_none_iff _ _).mp refused, rfl⟩)

/-- A running machine accepts an event or finds its queue full. -/
theorem fire_cases
    {session : Session κ τ ω}
    (running : session.phase = .running)
    (event : Event τ) :
    (∃ queue, session.queue.push? (.event (event.numbered (session.number + 1))) = some queue ∧
        session.fire event = (.ok (),
          { session with queue, number := session.number + 1 }.note
            (.accepted (event.numbered (session.number + 1))))) ∨
      session.queue.isFull = true ∧
        (session.fire event).2 =
          session.note (.refused (event.numbered (session.number + 1))) := by
  rcases session.fire_outcome event with ⟨notRunning, _⟩ | ⟨_, full, fired⟩ | ⟨_, _, accepted⟩
  · contradiction
  · exact .inr ⟨full, congrArg Prod.snd fired⟩
  · exact .inl accepted

end Session

/-! ## Responses of a worker -/

variable [DecidableEq κ] [StateKey κ] [DecidableEq τ] [Inspect τ]

namespace Worker

/-- Every event is counted. -/
theorem count_process
    (definition : Definition κ τ ω)
    (worker : Worker κ)
    (event : Event τ)
    (session : Session κ τ ω) :
    (worker.process definition event session).1.metadata.count =
      worker.metadata.count + 1 := by
  unfold process
  extract_lets leaves context begun candidates
  rcases definition.choose event candidates begun with ⟨chosen, faults, after⟩
  cases chosen with
  | none => rfl
  | some entry =>
      simp only [follow]
      split
      · rfl
      · rfl

/-- A steady worker queues nothing while it processes an event. -/
theorem performs_process
    {definition : Definition κ τ ω}
    (steady : definition.IsSteady)
    (worker : Worker κ)
    (event : Event τ)
    (session : Session κ τ ω) :
    ∃ more, session.Performs more (worker.process definition event session).2 := by
  obtain ⟨_, more, performs, _⟩ :=
    (Alike.refl worker).process steady session session (rfl : event.anonymous = event.anonymous)
  exact ⟨more, performs⟩

/-- From a first position a worker has come to another one by processing events. The trace
is what it performed. -/
inductive Responds (definition : Definition κ τ ω) (first : Worker κ) :
    List (Event τ) → Worker κ → List (Activity κ τ) → Prop
  /-- There have been no events. -/
  | nothing : Responds definition first [] first []
  /-- There has been one more event. -/
  | process
      {events : List (Event τ)}
      {worker : Worker κ}
      {trace more : List (Activity κ τ)}
      (before : Responds definition first events worker trace)
      (event : Event τ)
      (session : Session κ τ ω)
      (performs : session.Performs more (worker.process definition event session).2) :
      Responds definition first (events ++ [event])
        (worker.process definition event session).1 (trace ++ more)

namespace Responds

variable
  {definition : Definition κ τ ω}
  {first between last : Worker κ}
  {events later : List (Event τ)}
  {trace more : List (Activity κ τ)}

/-- Responses to some events continue with those to later events. -/
theorem append
    (before : Responds definition first events between trace)
    (after : Responds definition between later last more) :
    Responds definition first (events ++ later) last (trace ++ more) := by
  induction after with
  | nothing =>
      rw [List.append_nil, List.append_nil]
      exact before
  | process _ event session performs inductionHypothesis =>
      rw [← List.append_assoc, ← List.append_assoc]
      exact inductionHypothesis.process event session performs

/-- Every event is counted. -/
theorem count_eq (responds : Responds definition first events last trace) :
    last.metadata.count = first.metadata.count + UInt64.ofNat events.length := by
  induction responds with
  | nothing => exact (UInt64.add_zero _).symm
  | process _ event session _ inductionHypothesis =>
      rw [count_process, inductionHypothesis, List.length_append, List.length_singleton,
        Word.add_ofNat_succ]

/-- Steady workers in the same position respond alike to events that are the same without
identities. -/
theorem alike
    (steady : definition.IsSteady)
    {twin lastTwin : Worker κ}
    {twinEvents : List (Event τ)}
    {twinTrace : List (Activity κ τ)}
    (responds : Responds definition first events last trace)
    (twinResponds : Responds definition twin twinEvents lastTwin twinTrace)
    (samePosition : first.Alike twin)
    (sameEvents : events.map Event.anonymous = twinEvents.map Event.anonymous) :
    last.Alike lastTwin ∧ trace = twinTrace := by
  -- Both relations add events at the end, so the last events are compared first.
  induction responds generalizing twinEvents lastTwin twinTrace with
  | nothing =>
      cases twinResponds with
      | nothing => exact ⟨samePosition, rfl⟩
      | process _ _ _ _ => simp at sameEvents
  | process _ event session performs inductionHypothesis =>
      cases twinResponds with
      | nothing => simp at sameEvents
      | process twinBefore twinEvent twinSession twinPerforms =>
          rw [List.map_append, List.map_append, List.map_singleton, List.map_singleton,
            List.append_singleton_inj] at sameEvents
          obtain ⟨position, rfl⟩ := inductionHypothesis twinBefore sameEvents.1
          obtain ⟨moved, performed, one, other⟩ :=
            position.process steady session twinSession sameEvents.2
          rw [performs.unique one, twinPerforms.unique other]
          exact ⟨moved, rfl⟩

end Responds
end Worker
end Statechart
