import Mathlib.Tactic.Common
import Statechart.Machine.Worker

/-!
# What a machine can be seen to do

The trace of a session lists what a machine does with its events: the guards it asks, the
transitions it selects, the steps it takes and the notifications it gives. Identities of
events do not appear in a trace, and neither do times. Two sessions perform alike if they
add the same to their traces.
-/

namespace Statechart

variable {κ τ ω α : Type}

namespace Event

/-- The event without identities. -/
def anonymous (event : Event τ) : Event τ :=
  { event with id := Uuid.nil, cause := none }

/-- What a caller says with an event. -/
def content (event : Event τ) : τ × Payload :=
  (event.trigger, event.payload)

/-- Events without identities are the same if they say the same under the same number. -/
theorem anonymous_eq_iff
    {first second : Event τ} :
    first.anonymous = second.anonymous ↔
      first.content = second.content ∧ first.number = second.number := by
  cases first
  cases second
  simp [anonymous, content, and_assoc]

end Event

/-- The context without identities. -/
def Context.anonymous (context : Context κ τ) : Context κ τ :=
  { context with event := context.event.anonymous }

/-- The notification without identities. -/
def Notification.anonymous : Notification κ τ → Notification κ τ
  | .begin context => .begin context.anonymous
  | .completed before after context => .completed before after context.anonymous
  | .declined context => .declined context.anonymous
  | .exception context error => .exception context.anonymous error
  | .lifecycle phase active error => .lifecycle phase active error

namespace Activity

/-- What can be seen of an activity. -/
def trace? : Activity κ τ → Option (Activity κ τ)
  | .began event => some (.began event.anonymous)
  | .asked source verdict => some (.asked source verdict)
  | .selected transition => some (.selected transition)
  | .planned exits entries => some (.planned exits entries)
  | .completed step => some (.completed step)
  | .failed step error => some (.failed step error)
  | .notified observer notification => some (.notified observer notification.anonymous)
  | _ => none

/-- The event that was accepted. -/
def accepted? : Activity κ τ → Option (Event τ)
  | .accepted event => some event
  | _ => none

end Activity

namespace Session

/-- What a machine can be seen to do, the earliest first. -/
def trace (session : Session κ τ ω) : List (Activity κ τ) :=
  session.activities.filterMap Activity.trace?

/-- The accepted events, the earliest first. -/
def accepted (session : Session κ τ ω) : List (Event τ) :=
  session.activities.filterMap Activity.accepted?

theorem trace_note (session : Session κ τ ω) (activity : Activity κ τ) :
    (session.note activity).trace = session.trace ++ activity.trace?.toList := by
  rw [trace, activities, note, List.reverse_cons, List.filterMap_append]
  cases seen : activity.trace? with
  | none => simp [seen, trace, activities]
  | some _ => simp [seen, trace, activities]

theorem accepted_note (session : Session κ τ ω) (activity : Activity κ τ) :
    (session.note activity).accepted = session.accepted ++ activity.accepted?.toList := by
  rw [accepted, activities, note, List.reverse_cons, List.filterMap_append]
  cases taken : activity.accepted? with
  | none => simp [taken, accepted, activities]
  | some _ => simp [taken, accepted, activities]

/-- From one session to a later one the trace has grown, while nothing was queued. -/
structure Performs
    (before : Session κ τ ω)
    (trace : List (Activity κ τ))
    (after : Session κ τ ω) : Prop where
  /-- The phase stays. -/
  phase_eq : after.phase = before.phase
  /-- The queue stays. -/
  queue_eq : after.queue = before.queue
  /-- No number is used. -/
  number_eq : after.number = before.number
  /-- No event is accepted. -/
  accepted_eq : after.accepted = before.accepted
  /-- The trace grows. -/
  trace_eq : after.trace = before.trace ++ trace

namespace Performs

theorem refl (session : Session κ τ ω) : session.Performs [] session :=
  ⟨rfl, rfl, rfl, rfl, (List.append_nil _).symm⟩

theorem trans
    {first second third : Session κ τ ω}
    {earlier later : List (Activity κ τ)}
    (before : first.Performs earlier second)
    (after : second.Performs later third) :
    first.Performs (earlier ++ later) third where
  phase_eq := after.phase_eq.trans before.phase_eq
  queue_eq := after.queue_eq.trans before.queue_eq
  number_eq := after.number_eq.trans before.number_eq
  accepted_eq := after.accepted_eq.trans before.accepted_eq
  trace_eq := by
    rw [after.trace_eq, before.trace_eq, List.append_assoc]

/-- What has been performed is determined by the traces. -/
theorem unique
    {before after : Session κ τ ω}
    {first second : List (Activity κ τ)}
    (one : before.Performs first after)
    (other : before.Performs second after) :
    first = second := by
  have same := one.trace_eq.symm.trans other.trace_eq
  exact List.append_cancel_left same

end Performs

/-- Adding to the journal what is no acceptance performs what can be seen of it. -/
theorem performs_note
    (session : Session κ τ ω)
    {activity : Activity κ τ}
    (noEvent : activity.accepted? = none) :
    session.Performs activity.trace?.toList (session.note activity) where
  phase_eq := rfl
  queue_eq := rfl
  number_eq := rfl
  accepted_eq := by
    rw [accepted_note, noEvent]
    exact List.append_nil _
  trace_eq := trace_note session activity

/-- Publishing cannot be seen in the trace. -/
theorem performs_publish (session : Session κ τ ω) (snapshot : Snapshot κ) :
    session.Performs [] (session.publish snapshot) := by
  have noted := Session.performs_note { session with published := snapshot }
    (rfl : (Activity.published snapshot : Activity κ τ).accepted? = none)
  exact ⟨noted.phase_eq, noted.queue_eq, noted.number_eq, noted.accepted_eq,
    noted.trace_eq⟩

end Session

/-- A program that queues nothing performs nothing. -/
theorem Program.performs_run
    {program : Program κ τ α}
    (quiet : program.IsQuiet)
    (session : Session κ τ ω) :
    session.Performs [] (program.run session).2 := by
  induction program generalizing session with
  | done result => exact Session.Performs.refl session
  | fire event next inductionHypothesis => exact quiet.elim
  | look next inductionHypothesis =>
      have noted := session.performs_note
        (rfl : (Activity.shown session.view : Activity κ τ).accepted? = none)
      exact noted.trans (inductionHypothesis _ (quiet session.view) _)
  | log entry next inductionHypothesis =>
      have noted := session.performs_note
        (rfl : (Activity.wrote entry : Activity κ τ).accepted? = none)
      exact noted.trans (inductionHypothesis quiet _)

namespace Session

/-- A callback that queues nothing performs nothing. -/
theorem performs_call
    {callback : Callback κ τ ω α}
    (quiet : ∀ world, (callback world).IsQuiet)
    (session : Session κ τ ω) :
    session.Performs [] (session.call callback).2 := by
  have ran := Program.performs_run (quiet session.world) session
  exact ⟨ran.phase_eq, ran.queue_eq, ran.number_eq, ran.accepted_eq, ran.trace_eq⟩

/-- Two sessions add the same to their traces. -/
def PerformAlike (first second firstAfter secondAfter : Session κ τ ω) : Prop :=
  ∃ trace, first.Performs trace firstAfter ∧ second.Performs trace secondAfter

namespace PerformAlike

theorem refl (first second : Session κ τ ω) : PerformAlike first second first second :=
  ⟨[], Performs.refl first, Performs.refl second⟩

theorem trans
    {first second firstBetween secondBetween firstAfter secondAfter : Session κ τ ω}
    (before : PerformAlike first second firstBetween secondBetween)
    (after : PerformAlike firstBetween secondBetween firstAfter secondAfter) :
    PerformAlike first second firstAfter secondAfter := by
  obtain ⟨earlier, firstEarlier, secondEarlier⟩ := before
  obtain ⟨later, firstLater, secondLater⟩ := after
  exact ⟨earlier ++ later, firstEarlier.trans firstLater, secondEarlier.trans secondLater⟩

/-- Activities of which the same can be seen are alike. -/
theorem note
    (first second : Session κ τ ω)
    {one other : Activity κ τ}
    (sameTrace : one.trace? = other.trace?)
    (noEvent : one.accepted? = none)
    (noOther : other.accepted? = none) :
    PerformAlike first second (first.note one) (second.note other) := by
  refine ⟨one.trace?.toList, first.performs_note noEvent, ?_⟩
  rw [sameTrace]
  exact second.performs_note noOther

end PerformAlike
end Session
end Statechart
