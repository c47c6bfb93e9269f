import Statechart.Proofs.Machine.Response
import Statechart.Proofs.Machine.Run

/-!
# What callers are answered

A machine answers at once when it is asked to start, to take an event, to let a caller wait or
to stop. There is a reason for everything that it refuses, and it stays what it is then. At most
it notes that it was asked.
-/

namespace Statechart

variable {κ τ ω : Type}

/-! ## Events -/

namespace Session

variable {session : Session κ τ ω}

/-- A machine that does not run turns an event down. -/
theorem fire_of_not_running (notRunning : session.phase ≠ .running) (event : Event τ) :
    session.fire event = (.error .notRunning, session) := by
  rcases session.fire_outcome event with ⟨_, fired⟩ | ⟨running, _⟩ | ⟨running, _⟩
  · exact fired
  · contradiction
  · contradiction

/-- A full queue has no place for an event. -/
theorem fire_of_full
    (running : session.phase = .running)
    (full : session.queue.isFull = true)
    (event : Event τ) :
    session.fire event =
      (.error (.queueFull (session.queue.capacity.getD 0)),
        session.note (.refused (event.numbered (session.number + 1)))) := by
  rcases session.fire_outcome event with ⟨notRunning, _⟩ | ⟨_, _, fired⟩ | ⟨_, free, _⟩
  · contradiction
  · exact fired
  · rw [full] at free
    contradiction

end Session

/-! ## Calls -/

namespace Machine

variable {machine : Machine κ τ ω}

/-- The machine cannot be set running. -/
inductive HoldsBack (machine : Machine κ τ ω) (hasRuntime : Bool) : MachineError → Prop
  /-- It runs already. -/
  | running (running : machine.session.phase = .running) :
      HoldsBack machine hasRuntime .alreadyStarted
  /-- It has come to its end. -/
  | stopped (stopped : machine.session.phase = .stopped) : HoldsBack machine hasRuntime .stopped
  /-- There is no runtime to run in. -/
  | noRuntime
      (created : machine.session.phase = .created)
      (missing : hasRuntime = false) :
      HoldsBack machine hasRuntime .noRuntime

/-- A machine is set running unless something holds it back. -/
theorem launch_eq_error_iff
    {hasRuntime : Bool}
    {number : UInt64}
    {first : Session κ τ ω → Worker κ × Session κ τ ω}
    {error : MachineError} :
    (machine.launch hasRuntime number first).1 = .error error ↔
      machine.HoldsBack hasRuntime error := by
  unfold launch
  constructor
  · intro refused
    split at refused
    · rename_i running
      cases refused
      exact .running running
    · rename_i stopped
      cases refused
      exact .stopped stopped
    · rename_i created
      cases hasRuntime with
      | true => contradiction
      | false =>
          cases refused
          exact .noRuntime created rfl
  · intro holds
    cases holds with
    | running running => rw [running]
    | stopped stopped => rw [stopped]
    | noRuntime created missing =>
        rw [created, missing]
        rfl

/-- A machine that has not begun is set running in a runtime. -/
theorem launch_eq_ok_iff
    {hasRuntime : Bool}
    {number : UInt64}
    {first : Session κ τ ω → Worker κ × Session κ τ ω} :
    (machine.launch hasRuntime number first).1 = .ok () ↔
      machine.session.phase = .created ∧ hasRuntime = true := by
  unfold launch
  constructor
  · intro accepted
    split at accepted
    · contradiction
    · contradiction
    · rename_i created
      cases hasRuntime with
      | true => exact ⟨created, rfl⟩
      | false => contradiction
  · rintro ⟨created, rfl⟩
    rw [created]
    rfl

/-- A machine that is held back stays what it is. -/
theorem launch_of_holdsBack
    {hasRuntime : Bool}
    {error : MachineError}
    (holds : machine.HoldsBack hasRuntime error)
    (number : UInt64)
    (first : Session κ τ ω → Worker κ × Session κ τ ω) :
    (machine.launch hasRuntime number first).2 = machine := by
  cases holds with
  | running running => exact launch_of_begun (by simp [running]) ..
  | stopped stopped => exact launch_of_begun (by simp [stopped]) ..
  | noRuntime created missing =>
      unfold launch
      rw [created, missing]
      rfl

/-- The name in a checkpoint does not hold a machine back. -/
theorem holdsBack_comparingName_iff
    {checkpoint : Checkpoint κ}
    {hasRuntime : Bool}
    {error : MachineError} :
    (machine.comparingName checkpoint).HoldsBack hasRuntime error ↔
      machine.HoldsBack hasRuntime error := by
  constructor
  · intro holds
    cases holds with
    | running running => exact .running (by rwa [phase_comparingName] at running)
    | stopped stopped => exact .stopped (by rwa [phase_comparingName] at stopped)
    | noRuntime created missing =>
        exact .noRuntime (by rwa [phase_comparingName] at created) missing
  · intro holds
    cases holds with
    | running running => exact .running (by rwa [phase_comparingName])
    | stopped stopped => exact .stopped (by rwa [phase_comparingName])
    | noRuntime created missing => exact .noRuntime (by rwa [phase_comparingName]) missing

variable [DecidableEq κ] [StateKey κ]

/-- Why a machine refuses what it is asked for. -/
inductive Refuses (machine : Machine κ τ ω) : Operation κ τ ω → MachineError → Prop
  /-- It cannot be set running. -/
  | start
      {hasRuntime : Bool}
      {error : MachineError}
      (holds : machine.HoldsBack hasRuntime error) :
      Refuses machine (.start hasRuntime) error
  /-- The checkpoint stands for no configuration. -/
  | checkpoint
      {checkpoint : Checkpoint κ}
      {problem : CheckpointError}
      (fails : configurationOf machine.definition.graph checkpoint = .error problem)
      (hasRuntime : Bool) :
      Refuses machine (.startFrom checkpoint hasRuntime) (.checkpoint problem)
  /-- It cannot be set running with a checkpoint either. -/
  | startFrom
      {checkpoint : Checkpoint κ}
      {configuration : Configuration}
      {hasRuntime : Bool}
      {error : MachineError}
      (restored : configurationOf machine.definition.graph checkpoint = .ok configuration)
      (holds : machine.HoldsBack hasRuntime error) :
      Refuses machine (.startFrom checkpoint hasRuntime) error
  /-- It does not take events. -/
  | fire (notRunning : machine.session.phase ≠ .running) (event : Event τ) :
      Refuses machine (.fire event) .notRunning
  /-- It has no place for an event. -/
  | full
      (running : machine.session.phase = .running)
      (full : machine.session.queue.isFull = true)
      (event : Event τ) :
      Refuses machine (.fire event) (.queueFull (machine.session.queue.capacity.getD 0))
  /-- There is nothing to wait for. -/
  | settle (notRunning : machine.session.phase ≠ .running) : Refuses machine .settle .notRunning
  /-- It has not begun. -/
  | stopCreated (created : machine.session.phase = .created) :
      Refuses machine .requestStop .notRunning
  /-- It has been stopped before. -/
  | stopStopped (stopped : machine.session.phase = .stopped) :
      Refuses machine .requestStop .stopped

/-- What a caller is answered. -/
def reply? (machine : Machine κ τ ω) : Operation κ τ ω → Option (Except MachineError Unit)
  | .start hasRuntime => some (machine.start hasRuntime).1
  | .startFrom checkpoint hasRuntime => some (machine.startFrom checkpoint hasRuntime).1
  | .fire event => some (machine.fire event).1
  | .settle => some (machine.settle.1.map fun _ => ())
  | .requestStop => some machine.requestStop.1
  | .advance | .deposit | .change _ | .pass _ => none

/-- What a machine notes when it refuses what it is asked for, the latest first. -/
def remarks (machine : Machine κ τ ω) : Operation κ τ ω → List (Activity κ τ)
  | .startFrom checkpoint _ =>
      if checkpoint.machine = machine.name then []
      else [.renamed checkpoint.machine checkpoint.id]
  | .fire event =>
      if machine.isRunning then [.refused (event.numbered (machine.session.number + 1))]
      else []
  | _ => []

/-- The machine after it has noted something, given the latest first. -/
def noting (machine : Machine κ τ ω) (remarks : List (Activity κ τ)) : Machine κ τ ω :=
  { machine with
    session := { machine.session with journal := remarks ++ machine.session.journal } }

omit [DecidableEq κ] [StateKey κ] in
/-- It is noted that a checkpoint has another name, or that there is no place for an event. -/
theorem of_mem_remarks (machine : Machine κ τ ω) (operation : Operation κ τ ω) :
    ∀ activity ∈ machine.remarks operation,
      (∃ name id, activity = .renamed name id) ∨ ∃ event, activity = .refused event := by
  cases operation with
  | startFrom checkpoint hasRuntime =>
      rw [remarks]
      split <;> simp
  | fire event =>
      rw [remarks]
      split <;> simp
  | _ => simp [remarks]

omit [DecidableEq κ] [StateKey κ] in
/-- A machine that has compared its name has noted at most the other name. -/
theorem comparingName_eq_noting (checkpoint : Checkpoint κ) (hasRuntime : Bool) :
    machine.comparingName checkpoint =
      machine.noting (machine.remarks (.startFrom checkpoint hasRuntime)) := by
  rw [comparingName, remarks]
  split <;> rfl

theorem startFrom_eq_error_iff
    {checkpoint : Checkpoint κ}
    {hasRuntime : Bool}
    {error : MachineError} :
    (machine.startFrom checkpoint hasRuntime).1 = .error error ↔
      machine.Refuses (.startFrom checkpoint hasRuntime) error := by
  rw [startFrom_eq]
  cases outcome : configurationOf machine.definition.graph checkpoint with
  | error problem =>
      constructor
      · rintro ⟨⟩
        exact .checkpoint outcome hasRuntime
      · intro refuses
        cases refuses with
        | checkpoint fails _ => rw [Except.error.inj (outcome.symm.trans fails)]
        | startFrom restored _ => exact absurd (outcome.symm.trans restored) nofun
  | ok configuration =>
      simp only
      rw [launch_eq_error_iff, holdsBack_comparingName_iff]
      constructor
      · exact .startFrom outcome
      · intro refuses
        cases refuses with
        | checkpoint fails _ => exact absurd (outcome.symm.trans fails) nofun
        | startFrom _ holds => exact holds

theorem fire_eq_error_iff {event : Event τ} {error : MachineError} :
    (machine.fire event).1 = .error error ↔ machine.Refuses (.fire event) error := by
  constructor
  · intro refused
    rw [fire] at refused
    rcases machine.session.fire_outcome event with
      ⟨notRunning, fired⟩ | ⟨running, full, fired⟩ | ⟨_, _, _, _, fired⟩
    · rw [fired] at refused
      cases refused
      exact .fire notRunning event
    · rw [fired] at refused
      cases refused
      exact .full running full event
    · rw [fired] at refused
      contradiction
  · intro refuses
    rw [Machine.fire]
    cases refuses with
    | fire notRunning _ => rw [Session.fire_of_not_running notRunning]
    | full running full _ => rw [Session.fire_of_full running full]

theorem settle_eq_error_iff {error : MachineError} :
    machine.settle.1 = .error error ↔ machine.Refuses .settle error := by
  rw [settle]
  constructor
  · intro refused
    split at refused
    · cases refused
      exact .settle (by simp [*])
    · cases refused
      exact .settle (by simp [*])
    · contradiction
  · intro refuses
    cases refuses with
    | settle notRunning =>
        split
        · rfl
        · rfl
        · contradiction

theorem requestStop_eq_error_iff {error : MachineError} :
    machine.requestStop.1 = .error error ↔ machine.Refuses .requestStop error := by
  rw [requestStop]
  constructor
  · intro refused
    split at refused
    · rename_i created
      cases refused
      exact .stopCreated created
    · rename_i stopped
      cases refused
      exact .stopStopped stopped
    · contradiction
  · intro refuses
    cases refuses with
    | stopCreated created => rw [created]
    | stopStopped stopped => rw [stopped]

/-- A machine answers with an error for one of the reasons, and only then. -/
theorem reply?_eq_error_iff {operation : Operation κ τ ω} {error : MachineError} :
    machine.reply? operation = some (.error error) ↔ machine.Refuses operation error := by
  cases operation with
  | start hasRuntime =>
      rw [reply?, Option.some.injEq, start, launch_eq_error_iff]
      exact ⟨.start, fun | .start holds => holds⟩
  | startFrom checkpoint hasRuntime =>
      rw [reply?, Option.some.injEq, startFrom_eq_error_iff]
  | fire event => rw [reply?, Option.some.injEq, fire_eq_error_iff]
  | settle =>
      rw [reply?, Option.some.injEq, ← settle_eq_error_iff]
      cases machine.settle.1 <;> simp [Except.map]
  | requestStop => rw [reply?, Option.some.injEq, requestStop_eq_error_iff]
  | advance => exact ⟨nofun, nofun⟩
  | deposit => exact ⟨nofun, nofun⟩
  | change world => exact ⟨nofun, nofun⟩
  | pass clock => exact ⟨nofun, nofun⟩

variable [DecidableEq τ] [Inspect τ]

/-- A call that is refused changes nothing. At most it is noted. -/
theorem Refuses.apply_eq
    {operation : Operation κ τ ω}
    {error : MachineError}
    (refuses : machine.Refuses operation error) :
    machine.apply operation = machine.noting (machine.remarks operation) := by
  cases refuses with
  | start holds => exact launch_of_holdsBack holds ..
  | @checkpoint checkpoint _ fails hasRuntime =>
      rw [apply, startFrom_eq, fails]
      exact comparingName_eq_noting checkpoint hasRuntime
  | @startFrom checkpoint _ hasRuntime _ restored holds =>
      rw [apply, startFrom_eq, restored]
      simp only
      rw [launch_of_holdsBack (holdsBack_comparingName_iff.mpr holds)]
      exact comparingName_eq_noting checkpoint hasRuntime
  | fire notRunning event =>
      have idle : machine.isRunning = false := by simpa [isRunning, Session.isRunning]
      rw [apply, Machine.fire, Session.fire_of_not_running notRunning, remarks, idle]
      rfl
  | full running isFull event =>
      have runs : machine.isRunning = true := by simpa [isRunning, Session.isRunning]
      rw [apply, Machine.fire, Session.fire_of_full running isFull, remarks, runs]
      rfl
  | settle notRunning =>
      rw [apply, Machine.settle]
      split
      · rfl
      · rfl
      · contradiction
  | stopCreated created =>
      rw [apply, requestStop, created]
      rfl
  | stopStopped stopped =>
      rw [apply, requestStop, stopped]
      rfl

/-- A machine that refuses to stop does not stop. -/
theorem Refuses.stop_eq
    {error : MachineError}
    (refuses : machine.Refuses .requestStop error) :
    machine.stop = (.error error, machine) := by
  cases refuses with
  | stopCreated created => simp [stop, requestStop, created]
  | stopStopped stopped => simp [stop, requestStop, stopped]

end Machine

end Statechart
