import Statechart.Checkpoint.Basic
import Statechart.History.Json

/-!
# Checkpoints in JSON

The text form of a checkpoint. It is written with indentation and read leniently. The
version is checked once everything else has been read.
-/

namespace Statechart

namespace Metadata

/-- Counters and times as an object. -/
def writeJson (layout : Json.Layout) (depth : Nat) (metadata : Metadata) : List Char :=
  layout.writeObject depth
    [("created_at", fun _ => Json.writeTimestamp metadata.createdAt),
      ("updated_at", fun _ => Json.writeTimestamp metadata.updatedAt),
      ("processed", fun _ => Json.writeNatural metadata.processed)]

/-- The members of counters and times read so far. -/
structure Slots where
  createdAt : Option Timestamp
  updatedAt : Option Timestamp
  processed : Option Nat

/-- How counters and times are read. -/
def shape : Json.Shape Slots Metadata where
  members :=
    [.slot "created_at" Slots.createdAt
        (fun slots value => { slots with createdAt := some value }) Json.readTimestamp,
      .slot "updated_at" Slots.updatedAt
        (fun slots value => { slots with updatedAt := some value }) Json.readTimestamp,
      .slot "processed" Slots.processed
        (fun slots value => { slots with processed := some value })
        (Json.readNatural Word.bound64)]
  empty := ⟨none, none, none⟩
  finish slots := do
    pure ⟨← slots.createdAt, ← slots.updatedAt, .ofNat (← slots.processed)⟩
  mayStopEarly := false

/-- Takes counters and times. -/
def readJson : Json.Reader Metadata := Json.readStructure shape

end Metadata

namespace Checkpoint

variable {κ : Type} [KeyCodec κ]

/-- A checkpoint as an object. -/
def writeJson (layout : Json.Layout) (depth : Nat) (checkpoint : Checkpoint κ) : List Char :=
  layout.writeObject depth
    [("version", fun _ => Json.writeNatural checkpoint.version),
      ("id", fun _ => Json.writeText checkpoint.id.toText),
      ("machine", fun _ => Json.writeText checkpoint.machine),
      ("timestamp", fun _ => Json.writeTimestamp checkpoint.timestamp),
      ("active", fun depth => Json.writeKeys layout depth checkpoint.active),
      ("history", fun depth => checkpoint.history.writeJson layout depth),
      ("metadata", fun depth => checkpoint.metadata.writeJson layout depth)]

/-- The members of a checkpoint read so far. -/
structure Slots (κ : Type) where
  version : Option Nat
  id : Option Uuid
  machine : Option String
  timestamp : Option Timestamp
  active : Option (List κ)
  history : Option (History κ)
  metadata : Option Metadata

/-- How a checkpoint is read. -/
def shape : Json.Shape (Slots κ) (Checkpoint κ) where
  members :=
    [.slot "version" Slots.version (fun slots value => { slots with version := some value })
        (Json.readNatural Word.bound32),
      .slot "id" Slots.id (fun slots value => { slots with id := some value })
        (Json.readText.convert fun text => Uuid.ofChars? text.toList),
      .slot "machine" Slots.machine (fun slots value => { slots with machine := some value })
        Json.readText,
      .slot "timestamp" Slots.timestamp
        (fun slots value => { slots with timestamp := some value }) Json.readTimestamp,
      .slot "active" Slots.active (fun slots value => { slots with active := some value })
        Json.readKeys,
      .slot "history" Slots.history (fun slots value => { slots with history := some value })
        History.readJson,
      .slot "metadata" Slots.metadata
        (fun slots value => { slots with metadata := some value }) Metadata.readJson]
  empty := ⟨none, none, none, none, none, none, none⟩
  finish slots := do
    pure ⟨← slots.version, ← slots.id, ← slots.machine, ← slots.timestamp, ← slots.active,
      ← slots.history, ← slots.metadata⟩
  mayStopEarly := false

/-- Takes a checkpoint of any version. -/
def readJson : Json.Reader (Checkpoint κ) := Json.readStructure shape

/-- What a fault says about a document that is no checkpoint. -/
def faultReason : Json.Fault → String
  | .truncated => "the document ends too early"
  | .mistyped => "a value is missing, repeated or of the wrong type"
  | .malformed => "the document is malformed"

/-- The indented document of a checkpoint. -/
def toJson (checkpoint : Checkpoint κ) : Except CheckpointError String :=
  if checkpoint.fits then .ok (String.ofList (checkpoint.writeJson .indented 0))
  else .error tooLarge

/-- Reads a checkpoint of the supported version from a document. -/
def ofJson (document : String) : Except CheckpointError (Checkpoint κ) :=
  match Json.readDocument readJson document with
  | .error fault => .error (.deserializationFailed (faultReason fault))
  | .ok checkpoint => checkpoint.checkVersion

end Checkpoint
end Statechart
