import Statechart.Checkpoint.Binary
import Statechart.Proofs.Machine.Service
import Statechart.Proofs.Machine.Tracking
import Statechart.Proofs.Results

/-!
# Resuming from a checkpoint

A checkpoint that is captured when no event is waiting holds all that matters of a machine
with steady callbacks. Another machine of the same definition that takes it over, also by
way of a document, responds to further events as the captured one would have done.
-/

namespace Statechart

variable {κ τ ω : Type}

/-! ## Passages -/

/-- How a checkpoint gets from one machine to another. -/
inductive Passage
  /-- It is handed over as it is. -/
  | direct
  /-- It is written to a JSON document and read back. -/
  | json
  /-- It is written in binary and read back. -/
  | binary

namespace Passage

variable [KeyCodec κ] {checkpoint : Checkpoint κ}

/-- What arrives of a checkpoint. -/
def carry : Passage → Checkpoint κ → Except CheckpointError (Checkpoint κ)
  | .direct, checkpoint => .ok checkpoint
  | .json, checkpoint => checkpoint.toJson.bind Checkpoint.ofJson
  | .binary, checkpoint => checkpoint.toBinary.bind Checkpoint.ofBinary

/-- What is read back of a checkpoint, whatever its version, if it can be written. -/
def readBack? : Passage → Checkpoint κ → Option (Checkpoint κ)
  | .direct, checkpoint => some checkpoint
  | .json, checkpoint => do
      let document ← checkpoint.toJson.toOption
      (Json.readDocument Checkpoint.readJson document).toOption
  | .binary, checkpoint => do
      let bytes ← checkpoint.toBinary.toOption
      (Binary.readCheckpoint bytes).map Prod.fst

/-- The format keeps the fields of a checkpoint. -/
def Keeps (passage : Passage) (checkpoint : Checkpoint κ) : Prop :=
  passage.readBack? checkpoint = some checkpoint

instance [DecidableEq κ] (passage : Passage) (checkpoint : Checkpoint κ) :
    Decidable (passage.Keeps checkpoint) :=
  inferInstanceAs (Decidable (passage.readBack? checkpoint = some checkpoint))

/-- Where its fields are kept, a checkpoint of the supported version arrives. -/
theorem carry_eq_ok
    {passage : Passage}
    (keeps : passage.Keeps checkpoint)
    (supported : checkpoint.version = Checkpoint.supportedVersion) :
    passage.carry checkpoint = .ok checkpoint := by
  have passes : checkpoint.checkVersion = .ok checkpoint := by
    rw [Checkpoint.checkVersion, if_pos supported]
  cases passage with
  | direct => rfl
  | json =>
      obtain ⟨document, written, read⟩ := Option.bind_eq_some_iff.mp keeps
      rw [carry, eq_ok_of_toOption written, Except.bind, Checkpoint.ofJson,
        eq_ok_of_toOption read]
      exact passes
  | binary =>
      obtain ⟨bytes, written, read⟩ := Option.bind_eq_some_iff.mp keeps
      obtain ⟨⟨taken, rest⟩, found, rfl⟩ := Option.map_eq_some_iff.mp read
      rw [carry, eq_ok_of_toOption written, Except.bind, Checkpoint.ofBinary, found]
      exact passes

end Passage

variable [DecidableEq κ] [StateKey κ] [DecidableEq τ] [Inspect τ] {definition : Definition κ τ ω}

namespace Machine

/-! ## The position of a machine -/

namespace Serves

variable
  {origin originTwin : Worker κ}
  {opening : List (Activity κ τ)}
  {machine : Machine κ τ ω}

/-- A machine in which no event is waiting has responded to all that it accepted. -/
theorem responds_accepted
    (serves : machine.Serves definition origin opening)
    (drained : machine.session.queue.events = [])
    {worker : Worker κ}
    (isWorker : machine.worker = some worker) :
    ∃ trace, Worker.Responds definition origin machine.session.accepted worker trace ∧
      machine.session.trace = opening ++ trace := by
  obtain ⟨handled, other, trace, isOther, responds, trace_eq, accepted_eq⟩ := serves.responds
  rw [isWorker, Option.some.injEq] at isOther
  rw [drained, List.append_nil] at accepted_eq
  rw [accepted_eq, isOther]
  exact ⟨trace, responds, trace_eq⟩

/-- What one machine makes of all events comes to the same as what a machine makes of the
earlier ones and another one, which takes over its worker, makes of the later ones. -/
theorem split
    (steady : definition.IsSteady)
    (samePosition : origin.Alike originTwin)
    {whole earlier later : Machine κ τ ω}
    {worker captured resumed : Worker κ}
    (wholeServes : whole.Serves definition origin opening)
    (earlierServes : earlier.Serves definition originTwin opening)
    (laterServes : later.Serves definition captured [])
    (wholeDrained : whole.session.queue.events = [])
    (earlierDrained : earlier.session.queue.events = [])
    (laterDrained : later.session.queue.events = [])
    (isWorker : whole.worker = some worker)
    (isCaptured : earlier.worker = some captured)
    (isResumed : later.worker = some resumed)
    (sameContents : whole.session.accepted.map Event.content =
      earlier.session.accepted.map Event.content ++ later.session.accepted.map Event.content) :
    worker.Alike resumed ∧
      whole.session.trace = earlier.session.trace ++ later.session.trace := by
  obtain ⟨trace, responds, trace_eq⟩ := wholeServes.responds_accepted wholeDrained isWorker
  obtain ⟨earlierTrace, earlierResponds, earlierTrace_eq⟩ :=
    earlierServes.responds_accepted earlierDrained isCaptured
  obtain ⟨laterTrace, laterResponds, laterTrace_eq⟩ :=
    laterServes.responds_accepted laterDrained isResumed
  have sameLength : whole.session.accepted.length =
      earlier.session.accepted.length + later.session.accepted.length := by
    simpa using congrArg List.length sameContents
  -- The captured worker has counted the earlier events, so the numbers continue.
  have sameNumbers : whole.session.accepted.map Event.number =
      (earlier.session.accepted ++ later.session.accepted).map Event.number := by
    rw [List.map_append, wholeServes.numbered.numbers_eq, earlierServes.numbered.numbers_eq,
      laterServes.numbered.numbers_eq, earlierResponds.count_eq, sameLength,
      samePosition.count_eq, Word.following_append]
  have sameEvents := Event.map_anonymous_eq (sameContents.trans (List.map_append).symm) sameNumbers
  obtain ⟨moved, rfl⟩ :=
    responds.alike steady (earlierResponds.append laterResponds) samePosition sameEvents
  refine ⟨moved, ?_⟩
  rw [trace_eq, earlierTrace_eq, laterTrace_eq, List.nil_append, List.append_assoc]

end Serves

omit [DecidableEq τ] [Inspect τ] in
/-- The checkpoint of a machine stands for the position of its worker. -/
theorem Tracks.configurationOf_checkpoint
    {beginning : Beginning κ}
    {machine : Machine κ τ ω}
    (tracks : machine.Tracks definition beginning)
    (wellFormed : definition.IsWellFormed)
    {worker : Worker κ}
    (isWorker : machine.worker = some worker)
    (id : Uuid) :
    configurationOf definition.graph (machine.checkpoint id) = .ok worker.configuration ∧
      (⟨worker.configuration, (machine.checkpoint id).history,
        (machine.checkpoint id).metadata⟩ : Worker κ) = worker := by
  have published_eq : machine.snapshot = worker.snapshot definition :=
    tracks.published_eq isWorker
  constructor
  · refine configurationOf_leaves wellFormed.forest (tracks.isConsistent wellFormed isWorker) ?_
    rw [checkpoint, published_eq]
    rfl
  · rw [checkpoint, published_eq]
    rfl

end Machine

namespace Run

/-- What has been said with the accepted events. -/
def said (run : Run definition) : List (τ × Payload) :=
  run.machine.session.accepted.map Event.content

/-- The machine runs, and no event is waiting. -/
structure IsSettled (run : Run definition) : Prop where
  /-- The machine runs. -/
  running : run.machine.session.phase = .running
  /-- No event is waiting. -/
  drained : run.machine.session.queue.events = []

/-- A run comes to the same end as another one in two parts, in which a second machine
resumes what a first one has done. Times and identities do not matter. -/
structure AgreesWith (whole captured resumed : Run definition) : Prop where
  /-- The same leaves are active. -/
  states_eq : whole.machine.currentStates = resumed.machine.currentStates
  /-- Equally many events have been processed. -/
  count_eq :
    whole.machine.snapshot.metadata.count = resumed.machine.snapshot.metadata.count
  /-- The same transitions are remembered, and equally many can be. -/
  history : whole.machine.snapshot.history.Alike resumed.machine.snapshot.history
  /-- The same guards, steps and notifications can be seen. -/
  trace_eq : whole.machine.session.trace =
    captured.machine.session.trace ++ resumed.machine.session.trace

/-- From a checkpoint that stands for a configuration a machine goes on with any events. -/
theorem exists_settled_of_restored
    (wellFormed : definition.IsWellFormed)
    (steady : definition.IsSteady)
    {checkpoint : Checkpoint κ}
    {configuration : Configuration}
    (restored : Machine.configurationOf definition.graph checkpoint = .ok configuration)
    (clock : Timestamp)
    (world : ω)
    (events : List (Event τ)) :
    ∃ run : Run definition, run.clock = clock ∧ run.world = world ∧
      run.beginning = .restore checkpoint ∧ run.IsSettled ∧
      run.said = events.map Event.content := by
  have accepts : ((Machine.new definition clock world).begin (.restore checkpoint)).1 = .ok () :=
    (Machine.startFrom_accepts_iff rfl).mpr ⟨configuration, restored⟩
  rcases begun_eq : (Machine.new definition clock world).begin (.restore checkpoint) with
    ⟨answer, begun⟩
  rw [begun_eq] at accepts
  cases accepts
  obtain ⟨rests, fresh⟩ := Machine.rests_restored restored begun_eq
  obtain ⟨handled, said_eq⟩ := rests.handleAll steady wellFormed.places events
  refine ⟨⟨clock, world, .restore checkpoint, begun, begun_eq, Machine.oneByOne events⟩, rfl, rfl,
    rfl, ⟨handled.serves.running, ?_⟩, ?_⟩
  · exact congrArg Queue.events handled.queue_eq
  · rwa [fresh] at said_eq

/-- A run agrees with a run that has begun in the same way and with one that goes on in the
position where that one has ended. -/
theorem agreesWith_of_rests
    (wellFormed : definition.IsWellFormed)
    (steady : definition.IsSteady)
    {whole captured resumed : Run definition}
    (sameBeginning : whole.beginning = captured.beginning)
    {worker : Worker κ}
    (isWorker : captured.machine.worker = some worker)
    (rests : resumed.begun.Rests definition worker [])
    (wholeSettled : whole.IsSettled)
    (capturedSettled : captured.IsSettled)
    (resumedSettled : resumed.IsSettled)
    (sameSaid : whole.said = captured.said ++ resumed.said) :
    whole.AgreesWith captured resumed := by
  have wholeAccepted := whole.accepted
  rw [sameBeginning] at wholeAccepted
  obtain ⟨_, _, _, samePosition, wholeRests, capturedRests⟩ :=
    Machine.rests_begun steady wholeAccepted captured.accepted
  have wholeServes := wholeRests.serves.perform steady wholeSettled.running
  have capturedServes := capturedRests.serves.perform steady capturedSettled.running
  have resumedServes := rests.serves.perform steady resumedSettled.running
  obtain ⟨_, last, _, isLast, _⟩ := wholeServes.responds
  obtain ⟨_, lastResumed, _, isLastResumed, _⟩ := resumedServes.responds
  obtain ⟨moved, trace_eq⟩ := wholeServes.split steady samePosition capturedServes resumedServes
    wholeSettled.drained capturedSettled.drained resumedSettled.drained isLast isWorker
    isLastResumed sameSaid
  have shows : whole.machine.snapshot = last.snapshot definition :=
    (whole.tracks wellFormed).published_eq isLast
  have showsResumed : resumed.machine.snapshot = lastResumed.snapshot definition :=
    (resumed.tracks wellFormed).published_eq isLastResumed
  refine ⟨?_, ?_, ?_, trace_eq⟩
  · rw [Machine.currentStates, Machine.currentStates, shows, showsResumed, Worker.snapshot,
      Worker.snapshot, Worker.active, Worker.active, moved.configuration_eq]
  · rw [shows, showsResumed]
    exact moved.count_eq
  · rw [shows, showsResumed]
    exact moved.history

/-- A settled run of a machine with steady callbacks can be resumed from a checkpoint, with
or without a document in between: a new machine accepts the checkpoint and goes on with
any events, and it does so as if there had been one machine all the time. This also holds
after failures. -/
theorem agreesWith_of_restored
    [KeyCodec κ]
    {draft : MachineDraft κ τ ω}
    (built : draft.build = .ok definition)
    (steady : definition.IsSteady)
    (captured : Run definition)
    (settled : captured.IsSettled)
    (passage : Passage)
    (id : Uuid)
    (keeps : passage.Keeps (captured.machine.checkpoint id)) :
    ∃ carried, passage.carry (captured.machine.checkpoint id) = .ok carried ∧
      (∀ clock world (events : List (Event τ)), ∃ resumed : Run definition,
        resumed.clock = clock ∧ resumed.world = world ∧
          resumed.beginning = .restore carried ∧ resumed.IsSettled ∧
          resumed.said = events.map Event.content) ∧
      ∀ whole resumed : Run definition,
        whole.beginning = captured.beginning → resumed.beginning = .restore carried →
          whole.IsSettled → resumed.IsSettled → whole.said = captured.said ++ resumed.said →
            whole.AgreesWith captured resumed := by
  have wellFormed := Definition.isWellFormed_of_build built
  have tracks := captured.tracks wellFormed
  obtain ⟨_, _, _, _, begun, _⟩ := Machine.rests_begun steady captured.accepted captured.accepted
  have serves := begun.serves.perform steady settled.running
  obtain ⟨_, worker, _, isWorker, _⟩ := serves.responds
  obtain ⟨restored, position_eq⟩ := tracks.configurationOf_checkpoint wellFormed isWorker id
  refine ⟨captured.machine.checkpoint id, Passage.carry_eq_ok keeps rfl,
    exists_settled_of_restored wellFormed steady restored, ?_⟩
  intro whole resumed sameBeginning isResumed wholeSettled resumedSettled sameSaid
  have resumedAccepted := resumed.accepted
  rw [isResumed] at resumedAccepted
  obtain ⟨rests, _⟩ := Machine.rests_restored restored resumedAccepted
  rw [position_eq] at rests
  exact agreesWith_of_rests wellFormed steady sameBeginning isWorker rests wholeSettled settled
    resumedSettled sameSaid

/-! ## An example -/

/-- The state actions of the example are steady, also where they break off. -/
theorem isSteady_crossing : (crossing ["mute"]).IsSteady where
  guard payload listed guarded := by
    obtain rfl := List.mem_singleton.mp listed
    contradiction
  action payload listed member := by
    obtain rfl := List.mem_singleton.mp listed
    contradiction
  entry present := by
    obtain ⟨key, _, found⟩ := Option.bind_eq_some_iff.mp present
    contradiction
  exit present := by
    obtain ⟨key, _, found⟩ := Option.bind_eq_some_iff.mp present
    obtain ⟨registration, registered, rfl⟩ := Option.map_eq_some_iff.mp found
    obtain rfl := List.mem_singleton.mp (List.mem_of_find?_eq_some registered)
    exact ⟨fun _ => trivial, fun _ _ _ _ => rfl⟩
  observer notification world member := by contradiction

/-- A run in which a second event is fired before the first one is handled. -/
def crossingTwice (stuck : List String) : Run (crossing stuck) :=
  { crossingRun stuck with
    operations :=
      [.fire (.new .nil "cross"), .fire (.new .nil "cross"), .advance, .advance] }

/-- The half-finished transition leaves one region empty. A machine that takes this over
handles a second event as the first machine would have done. -/
theorem agreesWith_of_restored_crossing :
    (crossingDraft ["mute"]).build = .ok (crossing ["mute"]) ∧
      (crossing ["mute"]).IsSteady ∧
      (crossingRun ["mute"]).IsSettled ∧
      (crossingRun ["mute"]).machine.currentStates = ["mute"] ∧
      Passage.binary.Keeps ((crossingRun ["mute"]).machine.checkpoint .nil) ∧
      ∃ carried resumed,
        Passage.binary.carry ((crossingRun ["mute"]).machine.checkpoint .nil) = .ok carried ∧
          resumed.beginning = .restore carried ∧
          resumed.said = [("cross", Payload.unit)] ∧
          (crossingTwice ["mute"]).AgreesWith (crossingRun ["mute"]) resumed := by
  have built : (crossingDraft ["mute"]).build = .ok (crossing ["mute"]) := by cbv
  have settled : (crossingRun ["mute"]).IsSettled := ⟨by cbv, by cbv⟩
  have keeps : Passage.binary.Keeps ((crossingRun ["mute"]).machine.checkpoint .nil) := by
    decide +kernel
  have twiceSettled : (crossingTwice ["mute"]).IsSettled := ⟨by cbv, by cbv⟩
  obtain ⟨carried, arrives, accepts, agrees⟩ :=
    agreesWith_of_restored built isSteady_crossing (crossingRun ["mute"]) settled .binary .nil keeps
  obtain ⟨resumed, _, _, isResumed, resumedSettled, said_eq⟩ :=
    accepts midnight () [.new .nil "cross"]
  refine ⟨built, isSteady_crossing, settled, by cbv, keeps, carried, resumed, arrives, isResumed,
    said_eq, agrees (crossingTwice ["mute"]) resumed rfl isResumed twiceSettled resumedSettled ?_⟩
  rw [said_eq]
  cbv

end Run
end Statechart
