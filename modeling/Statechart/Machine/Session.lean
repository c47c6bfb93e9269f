import Statechart.Machine.Activity
import Statechart.Machine.Queue
import Statechart.Settings

/-!
# Sessions

A session is what a machine shares with its callers and callbacks: whether it runs, its
queue, the number of the last accepted event and the published snapshot. It also carries
the state of the client and the journal. Programs of callbacks run against a session.
-/

namespace Statechart

/-- The life of a machine. -/
inductive Phase
  | created
  | running
  | stopped
  deriving DecidableEq

/-- What a machine shares with its callers and callbacks. -/
structure Session (κ τ ω : Type) where
  phase : Phase
  queue : Queue τ
  /-- The number of the last accepted event. -/
  number : UInt64
  /-- What the machine shows of itself. -/
  published : Snapshot κ
  /-- The time at which the machine does what it does. -/
  clock : Timestamp
  /-- The state of the client. -/
  world : ω
  /-- What the machine did, the latest first. -/
  journal : List (Activity κ τ)

namespace Session

variable {κ τ ω α : Type}

/-- A session in which nothing has happened yet. -/
def initial (settings : Settings) (clock : Timestamp) (world : ω) : Session κ τ ω where
  phase := .created
  queue := Queue.empty settings.queueCapacity
  number := 0
  published := ⟨[], History.empty settings.historyLimit, ⟨clock, clock, 0⟩⟩
  clock
  world
  journal := []

/-- Adds an activity to the journal. -/
def note (session : Session κ τ ω) (activity : Activity κ τ) : Session κ τ ω :=
  { session with journal := activity :: session.journal }

/-- What the machine did, the earliest first. -/
def activities (session : Session κ τ ω) : List (Activity κ τ) :=
  session.journal.reverse

/-- Whether the machine runs. -/
def isRunning (session : Session κ τ ω) : Bool :=
  session.phase == .running

/-- What callers and callbacks see. -/
def view (session : Session κ τ ω) : View κ :=
  ⟨session.isRunning, session.published⟩

/-- Queues an event under the next number. A refused event uses no number. Behind the greatest
machine word the numbers start again from zero. -/
def fire (session : Session κ τ ω) (event : Event τ) :
    Except MachineError Unit × Session κ τ ω :=
  match session.phase with
  | .created | .stopped => (.error .notRunning, session)
  | .running =>
      let numbered := event.numbered (session.number + 1)
      match session.queue.push? (.event numbered) with
      | some queue =>
          (.ok (),
            { session with queue, number := session.number + 1 }.note (.accepted numbered))
      | none =>
          (.error (.queueFull (session.queue.capacity.getD 0)),
            session.note (.refused numbered))

/-- Publishes a snapshot. -/
def publish (session : Session κ τ ω) (snapshot : Snapshot κ) : Session κ τ ω :=
  { session with published := snapshot }.note (.published snapshot)

end Session

namespace Program

variable {κ τ ω α : Type}

/-- Answers the requests of a program one after the other. -/
def run : Program κ τ α → Session κ τ ω → α × Session κ τ ω
  | .done result, session => (result, session)
  | .fire event next, session =>
      let (answer, session) := session.fire event
      (next answer).run session
  | .look next, session => (next session.view).run (session.note (.shown session.view))
  | .log entry next, session => next.run (session.note (.wrote entry))

@[simp] theorem run_done (result : α) (session : Session κ τ ω) :
    (Program.done result : Program κ τ α).run session = (result, session) := rfl

@[simp] theorem run_fire
    (event : Event τ)
    (next : Except MachineError Unit → Program κ τ α)
    (session : Session κ τ ω) :
    (Program.fire event next).run session =
      (next (session.fire event).1).run (session.fire event).2 := rfl

@[simp] theorem run_look (next : View κ → Program κ τ α) (session : Session κ τ ω) :
    (Program.look next).run session =
      (next session.view).run (session.note (.shown session.view)) := rfl

@[simp] theorem run_log
    (entry : Log.Entry)
    (next : Program κ τ α)
    (session : Session κ τ ω) :
    (Program.log entry next).run session = next.run (session.note (.wrote entry)) := rfl

end Program

namespace Session

variable {κ τ ω α : Type}

/-- Runs a callback with the state of its client. -/
def call (session : Session κ τ ω) (callback : Callback κ τ ω α) : α × Session κ τ ω :=
  let ((result, world), session) := (callback session.world).run session
  (result, { session with world })

/-- Runs callbacks one after the other and collects their results. -/
def callEach :
    List (Callback κ τ ω α) → Session κ τ ω → List α × Session κ τ ω
  | [], session => ([], session)
  | callback :: callbacks, session =>
      let (result, session) := session.call callback
      let (results, session) := callEach callbacks session
      (result :: results, session)

/-- Notifies observers in order, from the one with the given number on. One that breaks
off does not keep the others from being notified. -/
def notifyFrom
    (notification : Notification κ τ) :
    Nat → List (Observer κ τ ω) → Session κ τ ω → Session κ τ ω
  | _, [], session => session
  | number, observer :: observers, session =>
      let (outcome, session) :=
        (session.note (.notified number notification)).call (observer notification)
      let session := match outcome with
        | .returned _ => session
        | .panicked panic =>
            session.note (.observerPanicked number notification.kind panic.text)
      notifyFrom notification (number + 1) observers session

/-- Notifies all observers in order. -/
def notify
    (session : Session κ τ ω)
    (observers : List (Observer κ τ ω))
    (notification : Notification κ τ) : Session κ τ ω :=
  notifyFrom notification 0 observers session

end Session
end Statechart
