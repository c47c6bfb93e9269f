import Statechart.Inspect
import Statechart.Json.Typed

/-!
# Settings

The settings of a machine that do not depend on its states: its name, how many events
its queue holds and how many transitions its history keeps. In a document every setting
may be missing and then has its default.
-/

namespace Statechart

/-- The settings of a machine. -/
structure Settings where
  /-- The name used in log records and checkpoints. -/
  name : String
  /-- The number of places in the event queue; without it there is no bound. -/
  queueCapacity : Option Nat
  /-- The number of transitions kept in the history; without it all are kept. -/
  historyLimit : Option Nat
  deriving DecidableEq

namespace Settings

/-- The settings of a machine that is not told otherwise. -/
def standard : Settings := ⟨"statetree", none, some 1000⟩

instance : Inhabited Settings := ⟨standard⟩

/-- The settings with another name. -/
def withName (settings : Settings) (name : String) : Settings :=
  { settings with name }

/-- The settings with a bounded queue. -/
def withQueueCapacity (settings : Settings) (capacity : Nat) : Settings :=
  { settings with queueCapacity := some capacity }

/-- The settings with another history limit. -/
def withHistoryLimit (settings : Settings) (limit : Option Nat) : Settings :=
  { settings with historyLimit := limit }

instance : Inspect Settings where
  inspect settings :=
    inspectRecord "MachineConfig"
      [("name", inspect settings.name), ("queue_capacity", inspect settings.queueCapacity),
        ("history_limit", inspect settings.historyLimit)]

/-- The settings read so far. -/
structure Slots where
  name : Option String
  queueCapacity : Option (Option Nat)
  historyLimit : Option (Option Nat)

/-- How settings are read. -/
def shape : Json.Shape Slots Settings where
  members :=
    [.slot "name" Slots.name (fun slots value => { slots with name := some value })
        Json.readText,
      .slot "queue_capacity" Slots.queueCapacity
        (fun slots value => { slots with queueCapacity := some value })
        (Json.readOptional (Json.readNatural Word.bound64)),
      .slot "history_limit" Slots.historyLimit
        (fun slots value => { slots with historyLimit := some value })
        (Json.readOptional (Json.readNatural Word.bound64))]
  empty := ⟨none, none, none⟩
  finish slots := some
    ⟨slots.name.getD standard.name, slots.queueCapacity.getD standard.queueCapacity,
      slots.historyLimit.getD standard.historyLimit⟩
  mayStopEarly := true

/-- Reads settings from a document. -/
def ofJson (document : String) : Except Json.Fault Settings :=
  Json.readDocument (Json.readStructure shape) document

/-- The settings as an object. -/
def writeJson (layout : Json.Layout) (depth : Nat) (settings : Settings) : List Char :=
  layout.writeObject depth
    [("name", fun _ => Json.writeText settings.name),
      ("queue_capacity", fun _ => Json.writeOptional Json.writeNatural settings.queueCapacity),
      ("history_limit", fun _ => Json.writeOptional Json.writeNatural settings.historyLimit)]

/-- The compact document of the settings. -/
def toJson (settings : Settings) : String :=
  String.ofList (settings.writeJson .compact 0)

end Settings
end Statechart
