import Statechart.History.Basic
import Statechart.Uuid
import Statechart.Word

/-!
# Checkpoints

A checkpoint captures where a machine is: its active leaves, its history and its
counters. A machine of the same description can be started from it. Only checkpoints of
the supported version can be used.
-/

namespace Statechart

/-- What went wrong with a checkpoint. -/
inductive CheckpointError
  | serializationFailed (reason : String)
  | deserializationFailed (reason : String)
  | unsupportedVersion (found supported : Nat)
  | unknownState (state : String)
  | inconsistentConfiguration (state : String)
  deriving DecidableEq

namespace CheckpointError

/-- The text of an error. -/
def message : CheckpointError → String
  | .serializationFailed reason => s!"Serialization failed: {reason}"
  | .deserializationFailed reason => s!"Deserialization failed: {reason}"
  | .unsupportedVersion found supported =>
      s!"Unsupported checkpoint version {found}, supported: {supported}"
  | .unknownState state => s!"Checkpoint names unknown state '{state}'"
  | .inconsistentConfiguration state =>
      s!"Checkpoint configuration is inconsistent at state '{state}'"

end CheckpointError

/-- The counters and times that a machine keeps about itself. -/
structure Metadata where
  /-- When the machine was put together. -/
  createdAt : Timestamp
  /-- When it last processed an event. -/
  updatedAt : Timestamp
  /-- How many events it has processed, counted in a machine word. -/
  count : UInt64
  deriving DecidableEq

/-- The count of events as it is shown. -/
def Metadata.processed (metadata : Metadata) : Nat := metadata.count.toNat

/-- A captured position of a machine. -/
structure Checkpoint (κ : Type) where
  /-- The version of the format. -/
  version : Nat
  /-- The identity of the checkpoint. -/
  id : Uuid
  /-- The name of the machine. -/
  machine : String
  /-- When it was captured. -/
  timestamp : Timestamp
  /-- The active leaves. -/
  active : List κ
  /-- The completed transitions. -/
  history : History κ
  /-- Counters and times. -/
  metadata : Metadata
  deriving DecidableEq

namespace Checkpoint

variable {κ : Type}

/-- The version that this library writes and accepts. -/
def supportedVersion : Nat := 1

/-- Passes a checkpoint of the supported version. -/
def checkVersion (checkpoint : Checkpoint κ) : Except CheckpointError (Checkpoint κ) :=
  if checkpoint.version = supportedVersion then .ok checkpoint
  else .error (.unsupportedVersion checkpoint.version supportedVersion)

/-- Whether the numbers of a checkpoint fit into a document. -/
def fits (checkpoint : Checkpoint κ) : Bool :=
  decide (checkpoint.version < Word.bound32) &&
    checkpoint.history.limit.all fun limit => decide (limit < Word.bound64)

/-- The error for a checkpoint that has no written form. -/
def tooLarge : CheckpointError :=
  .serializationFailed "a number or length is too large"

end Checkpoint
end Statechart
