import Statechart.History.Basic
import Statechart.KeyCodec
import Statechart.Timestamp.Text

/-!
# Histories in JSON

A history is written with its records, oldest first, and its limit. When it is read the
limit may be missing, which means that there is none.
-/

namespace Statechart

variable {κ : Type} [KeyCodec κ]

namespace Json

/-- A list of state keys. -/
def writeKeys (layout : Layout) (depth : Nat) (keys : List κ) : List Char :=
  layout.writeList depth (fun _ => KeyCodec.writeJson) keys

/-- Takes a list of state keys. -/
def readKeys : Reader (List κ) := readList KeyCodec.readJson

/-- A timestamp as a text. -/
def writeTimestamp (timestamp : Timestamp) : List Char :=
  writeText timestamp.toText

/-- Takes a timestamp. -/
def readTimestamp : Reader Timestamp := readText.convert Timestamp.ofText?

end Json

namespace Record

/-- A record as an object. -/
def writeJson (layout : Json.Layout) (depth : Nat) (record : Record κ) : List Char :=
  layout.writeObject depth
    [("from", fun depth => Json.writeKeys layout depth record.before),
      ("to", fun depth => Json.writeKeys layout depth record.after),
      ("trigger", fun _ => Json.writeText record.trigger),
      ("sequence", fun _ => Json.writeNatural record.sequence),
      ("timestamp", fun _ => Json.writeTimestamp record.timestamp)]

/-- The members of a record read so far. -/
structure Slots (κ : Type) where
  before : Option (List κ)
  after : Option (List κ)
  trigger : Option String
  sequence : Option Nat
  timestamp : Option Timestamp

/-- How a record is read. -/
def shape : Json.Shape (Slots κ) (Record κ) where
  members :=
    [.slot "from" Slots.before (fun slots value => { slots with before := some value })
        Json.readKeys,
      .slot "to" Slots.after (fun slots value => { slots with after := some value })
        Json.readKeys,
      .slot "trigger" Slots.trigger (fun slots value => { slots with trigger := some value })
        Json.readText,
      .slot "sequence" Slots.sequence
        (fun slots value => { slots with sequence := some value })
        (Json.readNatural Word.bound64),
      .slot "timestamp" Slots.timestamp
        (fun slots value => { slots with timestamp := some value }) Json.readTimestamp]
  empty := ⟨none, none, none, none, none⟩
  finish slots := do
    pure ⟨← slots.before, ← slots.after, ← slots.trigger, .ofNat (← slots.sequence),
      ← slots.timestamp⟩
  mayStopEarly := false

/-- Takes a record. -/
def readJson : Json.Reader (Record κ) := Json.readStructure shape

end Record

namespace History

/-- A history as an object. -/
def writeJson (layout : Json.Layout) (depth : Nat) (history : History κ) : List Char :=
  layout.writeObject depth
    [("transitions", fun depth =>
        layout.writeList depth (Record.writeJson layout) history.records),
      ("limit", fun _ => Json.writeOptional Json.writeNatural history.limit)]

/-- The members of a history read so far. -/
structure Slots (κ : Type) where
  records : Option (List (Record κ))
  limit : Option (Option Nat)

/-- How a history is read. -/
def shape : Json.Shape (Slots κ) (History κ) where
  members :=
    [.slot "transitions" Slots.records
        (fun slots value => { slots with records := some value })
        (Json.readList Record.readJson),
      .slot "limit" Slots.limit (fun slots value => { slots with limit := some value })
        (Json.readOptional (Json.readNatural Word.bound64))]
  empty := ⟨none, none⟩
  finish slots := do
    pure ⟨← slots.records, slots.limit.join⟩
  mayStopEarly := false

/-- Takes a history. -/
def readJson : Json.Reader (History κ) := Json.readStructure shape

/-- The compact document of a history. -/
def toJson (history : History κ) : String :=
  String.ofList (history.writeJson .compact 0)

/-- Reads a history from a document. -/
def ofJson (document : String) : Except Json.Fault (History κ) :=
  Json.readDocument readJson document

end History
end Statechart
