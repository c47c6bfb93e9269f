import Statechart.Checkpoint.Basic
import Statechart.KeyCodec
import Statechart.Timestamp.Text

/-!
# Checkpoints in binary

The binary form of a checkpoint: its parts in order, with nothing in between. Bytes
behind the end are ignored. The version is checked once everything else has been read.
-/

namespace Statechart

namespace Binary

/-- A timestamp as a text. -/
def writeTimestamp (timestamp : Timestamp) : List UInt8 :=
  writeText timestamp.toText

/-- Takes a timestamp. -/
def readTimestamp : Reader Timestamp := readText.convert Timestamp.ofText?

variable {κ : Type} [KeyCodec κ]

/-- A record, part by part. -/
def writeRecord (record : Record κ) : List UInt8 :=
  writeList KeyCodec.writeBinary record.before ++
    writeList KeyCodec.writeBinary record.after ++
    writeText record.trigger ++ writeNatural 8 record.sequence ++
    writeTimestamp record.timestamp

/-- Takes a record. -/
def readRecord : Reader (Record κ) := fun bytes => do
  let (before, bytes) ← readList KeyCodec.readBinary bytes
  let (after, bytes) ← readList KeyCodec.readBinary bytes
  let (trigger, bytes) ← readText bytes
  let (sequence, bytes) ← readNatural 8 bytes
  let (timestamp, bytes) ← readTimestamp bytes
  pure (⟨before, after, trigger, .ofNat sequence, timestamp⟩, bytes)

/-- Whether the binary format has room for a record. -/
def fitsRecord (record : Record κ) : Bool :=
  fitsList KeyCodec.fitsBinary record.before && fitsList KeyCodec.fitsBinary record.after &&
    fitsText record.trigger

/-- A history, part by part. -/
def writeHistory (history : History κ) : List UInt8 :=
  writeList writeRecord history.records ++ writeOptional (writeNatural 8) history.limit

/-- Takes a history. -/
def readHistory : Reader (History κ) := fun bytes => do
  let (records, bytes) ← readList readRecord bytes
  let (limit, bytes) ← readOptional (readNatural 8) bytes
  pure (⟨records, limit⟩, bytes)

/-- Counters and times, part by part. -/
def writeMetadata (metadata : Metadata) : List UInt8 :=
  writeTimestamp metadata.createdAt ++ writeTimestamp metadata.updatedAt ++
    writeNatural 8 metadata.processed

/-- Takes counters and times. -/
def readMetadata : Reader Metadata := fun bytes => do
  let (createdAt, bytes) ← readTimestamp bytes
  let (updatedAt, bytes) ← readTimestamp bytes
  let (processed, bytes) ← readNatural 8 bytes
  pure (⟨createdAt, updatedAt, .ofNat processed⟩, bytes)

/-- A checkpoint, part by part. -/
def writeCheckpoint (checkpoint : Checkpoint κ) : List UInt8 :=
  writeNatural 4 checkpoint.version ++ writeRun checkpoint.id.bytes ++
    writeText checkpoint.machine ++ writeTimestamp checkpoint.timestamp ++
    writeList KeyCodec.writeBinary checkpoint.active ++ writeHistory checkpoint.history ++
    writeMetadata checkpoint.metadata

/-- Takes a checkpoint of any version. -/
def readCheckpoint : Reader (Checkpoint κ) := fun bytes => do
  let (version, bytes) ← readNatural 4 bytes
  let (id, bytes) ← readRun.convert Uuid.ofBytes? bytes
  let (machine, bytes) ← readText bytes
  let (timestamp, bytes) ← readTimestamp bytes
  let (active, bytes) ← readList KeyCodec.readBinary bytes
  let (history, bytes) ← readHistory bytes
  let (metadata, bytes) ← readMetadata bytes
  pure (⟨version, id, machine, timestamp, active, history, metadata⟩, bytes)

/-- Whether the binary format has room for the texts and lists of a checkpoint. -/
def fitsCheckpoint (checkpoint : Checkpoint κ) : Bool :=
  fitsText checkpoint.machine && fitsList KeyCodec.fitsBinary checkpoint.active &&
    fitsList fitsRecord checkpoint.history.records

end Binary

namespace Checkpoint

variable {κ : Type} [KeyCodec κ]

/-- The bytes of a checkpoint. -/
def toBinary (checkpoint : Checkpoint κ) : Except CheckpointError (List UInt8) :=
  if checkpoint.fits && Binary.fitsCheckpoint checkpoint then
    .ok (Binary.writeCheckpoint checkpoint)
  else .error tooLarge

/-- Reads a checkpoint of the supported version from the front of some bytes. -/
def ofBinary (bytes : List UInt8) : Except CheckpointError (Checkpoint κ) :=
  match Binary.readCheckpoint bytes with
  | none => .error (.deserializationFailed "the bytes are no checkpoint")
  | some (checkpoint, _) => checkpoint.checkVersion

end Checkpoint
end Statechart
