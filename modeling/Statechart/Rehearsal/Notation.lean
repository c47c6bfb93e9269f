import Statechart.Json.Document
import Statechart.Rehearsal.Script

/-!
# How scripts are written

Scripts are written as JSON documents. A callback is an object whose members say what it
notes, what it does and how it ends; members that are missing have defaults. Callbacks
are numbered in the order in which they are read.
-/

namespace Statechart
namespace Rehearsal
namespace Notation

open Json (Document)

/-- Reading that numbers callbacks. -/
abbrev Numbered := StateT Nat Option

/-- The number of the next callback. -/
def nextNumber : Numbered Nat := fun number => some (number, number + 1)

/-- A trigger is written as a text or an integer. -/
def trigger? : Document → Option Trigger
  | .text word => some (.word word)
  | document => document.int?.map .number

/-- The written form of a trigger. -/
def ofTrigger : Trigger → Document
  | .word word => .text word
  | .number value => .ofInt value

/-- The short names of the payload types. -/
def payloadTypes : List (String × PayloadType) :=
  [("unit", .unit), ("bool", .bool), ("u8", .uint8), ("i32", .int32), ("u32", .uint32),
    ("i64", .int64), ("u64", .uint64), ("char", .char), ("string", .string),
    ("str", .literal), ("vec", .numbers), ("pair", .labelled)]

/-- A payload type by its short name. -/
def payloadType? (document : Document) : Option PayloadType := do
  let name ← document.text?
  (payloadTypes.find? fun entry => entry.1 == name).map Prod.snd

/-- An integer between two bounds. -/
def intWithin? (low high : Int) (document : Document) : Option Int :=
  document.int?.filter fun value => decide (low ≤ value ∧ value ≤ high)

/-- An integer of 64 bits. -/
def int64? (document : Document) : Option Int64 :=
  (intWithin? (-9223372036854775808) 9223372036854775807 document).map Int64.ofInt

/-- A value of a payload type. -/
def value? (document : Document) : (type : PayloadType) → Option type.Value
  | .unit => some ()
  | .bool => document.bool?
  | .uint8 => (intWithin? 0 255 document).map fun value => UInt8.ofNat value.toNat
  | .int32 => (intWithin? (-2147483648) 2147483647 document).map Int32.ofInt
  | .uint32 => (intWithin? 0 4294967295 document).map fun value => UInt32.ofNat value.toNat
  | .int64 => int64? document
  | .uint64 =>
      (intWithin? 0 18446744073709551615 document).map fun value => UInt64.ofNat value.toNat
  | .char =>
      match document.text?.map String.toList with
      | some [character] => some character
      | _ => none
  | .string => document.text?
  | .literal => document.text?
  | .numbers => document.items?.bind fun items => items.mapM int64?
  | .labelled =>
      match document.items? with
      | some [number, label] => do pure (← int64? number, ← label.text?)
      | _ => none

/-- The written form of a value. -/
def ofValue : (type : PayloadType) → type.Value → Document
  | .unit, _ => .null
  | .bool, value => .bool value
  | .uint8, value => .ofNat (UInt8.toNat value)
  | .int32, value => .ofInt (Int32.toInt value)
  | .uint32, value => .ofNat (UInt32.toNat value)
  | .int64, value => .ofInt (Int64.toInt value)
  | .uint64, value => .ofNat (UInt64.toNat value)
  | .char, value => .text (String.singleton value)
  | .string, value => .text value
  | .literal, value => .text value
  | .numbers, values => .ofList (fun value => .ofInt (Int64.toInt value)) values
  | .labelled, value => .array [.ofInt (Int64.toInt value.1), .text value.2]

/-- A payload. Without one an event carries nothing. -/
def payload? : Document → Option Payload
  | .null => some Payload.unit
  | document => do
      let type ← payloadType? (document.get "type")
      pure ⟨type, ← value? (document.get "value") type⟩

/-- The written form of a payload's value. -/
def ofPayload (payload : Payload) : Document := ofValue payload.type payload.value

/-- A panic is written as the text that it leaves behind; anything else is no text. -/
def panicOf : Document → Panic
  | .text left => .message left
  | _ => .unknown

/-- A comparison by its short name. -/
def comparison? : String → Option Comparison
  | "lt" => some .less
  | "le" => some .atMost
  | "gt" => some .greater
  | "ge" => some .atLeast
  | "eq" => some .equal
  | "ne" => some .different
  | _ => none

/-- A predicate is written as a list of its name and what it is about. -/
def predicate? (type : PayloadType) (document : Document) : Option (Predicate type) := do
  match ← document.items? with
  | [.text "even"] => pure .even
  | [.text "starts_with", beginning] => pure (.startsWith (← beginning.text?))
  | [.text "const", value] => pure (.constant (← value.bool?))
  | [.text "panic", panic] => pure (.breaks (panicOf panic))
  | [.text name, operand] => pure (.compare (← comparison? name) (← value? operand type))
  | _ => none

/-- An event to be made. -/
def event? (document : Document) : Option EventScript := do
  pure
    { trigger := ← trigger? (document.get "trigger")
      payload := ← payload? (document.get "payload")
      label := ← (document.get "id").optional Document.text?
      cause := ← (document.get "caused_by").optional Document.text? }

/-- An event that is queued on the first call, or on as many calls as given. -/
def fire? (document : Document) : Option FireScript := do
  let limit ← (document.get "limit").optional Document.nat?
  pure ⟨← event? document, limit.getD 1⟩

/-- What a callback does to its machine. -/
def effects? (document : Document) : Option Effects := do
  let probes ← (document.get "probe").optional Document.bool?
  pure ⟨probes.getD false, ← (document.get "fire").optional fire?⟩

/-- The number and the label of a callback. -/
def identity (document : Document) : Numbered Identity := do
  let label ← (document.get "label").optional Document.text?
  pure ⟨← nextNumber, label⟩

/-- The results of a callback. -/
def results? (result? : Document → Option α) (document : Document) : Option (Results α) := do
  let scripted ← (← (document.get "script").items?).mapM result?
  pure ⟨scripted, ← result? (document.get "returns")⟩

/-- What a guard answers. It allows its transition by default. -/
def guardResult? : Document → Option GuardResult
  | .null => some (.allows true)
  | .bool allowed => some (.allows allowed)
  | document => some (.breaks (panicOf (document.get "panic")))

/-- How an action ends. It succeeds by default. -/
def actionResult? : Document → Option ActionResult
  | .null | .text _ => some .succeeds
  | document =>
      match document.get "err" with
      | .text message => do
          let contexts ← (← (document.get "context").items?).mapM Document.text?
          pure (.fails (contexts.foldl Failure.within (.reported message [])))
      | _ => some (.breaks (panicOf (document.get "panic")))

variable {κ : Type}

/-- A guard. -/
def guard (document : Document) : Numbered (Guard κ Trigger (World κ)) := do
  let identity ← identity document
  let effects ← effects? document
  let results ← results? guardResult? document
  match document.get "type" with
  | .null => pure (guardIgnoring identity effects results)
  | name =>
      let type ← payloadType? name
      let predicate ← (document.get "pred").optional (predicate? type)
      pure (guardTyped identity effects results type predicate)

/-- An action. -/
def action (document : Document) : Numbered (Action κ Trigger (World κ)) := do
  let identity ← identity document
  let effects ← effects? document
  let results ← results? actionResult? document
  match document.get "type" with
  | .null => pure (actionIgnoring identity effects results)
  | name =>
      let type ← payloadType? name
      let exemption ← (document.get "unless").optional (predicate? type)
      pure (actionTyped identity effects results type exemption)

/-- A state action. -/
def stateAction (document : Document) : Numbered (StateAction κ Trigger (World κ)) := do
  let identity ← identity document
  let effects ← effects? document
  pure (Rehearsal.stateAction identity effects (← results? actionResult? document))

/-- The short name of the kind of a notification. -/
def kindName : Notification κ Trigger → String
  | .begin _ => "begin"
  | .completed .. => "completed"
  | .declined _ => "declined"
  | .exception .. => "exception"
  | .lifecycle .. => "lifecycle"

/-- What an observer does on one kind of notification. -/
def observerScript (document : Document) : Numbered ObserverScript := do
  let panic ← (document.get "panic").optional fun panic => some (panicOf panic)
  pure ⟨← nextNumber, ← effects? document, panic⟩

/-- An observer of some kinds of notifications, with a script for each of them. -/
def observer
    (label : String)
    (scripts : List (String × Document)) : Numbered (Observer κ Trigger (World κ)) := do
  let known ← scripts.mapM fun script => do
    pure (script.1, ← observerScript script.2)
  pure (Rehearsal.observer label fun notification =>
    (known.find? fun entry => entry.1 == kindName notification).map Prod.snd)

end Notation
end Rehearsal
end Statechart
