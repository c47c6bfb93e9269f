import Statechart.Checkpoint.Json

/-!
# Snapshots

What a machine shows of itself: the active leaves, the history and the counters, as they
were after the last event. A view is a snapshot together with whether the machine runs.
-/

namespace Statechart

/-- What a machine shows of itself. -/
structure Snapshot (κ : Type) where
  /-- The active leaves in the order of the forest. -/
  active : List κ
  /-- The completed transitions. -/
  history : History κ
  /-- Counters and times. -/
  metadata : Metadata
  deriving DecidableEq

/-- What a callback can see of its machine. -/
structure View (κ : Type) where
  /-- Whether the machine runs. -/
  running : Bool
  /-- What the machine shows of itself. -/
  snapshot : Snapshot κ
  deriving DecidableEq

namespace Snapshot

variable {κ : Type} [KeyCodec κ]

/-- A snapshot as an object. -/
def writeJson (layout : Json.Layout) (depth : Nat) (snapshot : Snapshot κ) : List Char :=
  layout.writeObject depth
    [("active", fun depth => Json.writeKeys layout depth snapshot.active),
      ("history", fun depth => snapshot.history.writeJson layout depth),
      ("metadata", fun depth => snapshot.metadata.writeJson layout depth)]

/-- The members of a snapshot read so far. -/
structure Slots (κ : Type) where
  active : Option (List κ)
  history : Option (History κ)
  metadata : Option Metadata

/-- How a snapshot is read. -/
def shape : Json.Shape (Slots κ) (Snapshot κ) where
  members :=
    [.slot "active" Slots.active (fun slots value => { slots with active := some value })
        Json.readKeys,
      .slot "history" Slots.history (fun slots value => { slots with history := some value })
        History.readJson,
      .slot "metadata" Slots.metadata
        (fun slots value => { slots with metadata := some value }) Metadata.readJson]
  empty := ⟨none, none, none⟩
  finish slots := do
    pure ⟨← slots.active, ← slots.history, ← slots.metadata⟩
  mayStopEarly := false

/-- The compact document of a snapshot. -/
def toJson (snapshot : Snapshot κ) : String :=
  String.ofList (snapshot.writeJson .compact 0)

/-- Reads a snapshot from a document. -/
def ofJson (document : String) : Except Json.Fault (Snapshot κ) :=
  Json.readDocument (Json.readStructure shape) document

end Snapshot
end Statechart
