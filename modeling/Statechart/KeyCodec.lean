import Statechart.Binary.Format
import Statechart.Json.Typed
import Statechart.StateKey

/-!
# State keys in documents

How the keys of states are written and read. A text key is a text in either format. A
key from a list is its name in JSON, or an object whose only key is the name and whose
value is null; in the binary format it is its position in the list.
-/

namespace Statechart

/-- A type of state keys that can be written and read. -/
class KeyCodec (κ : Type) where
  /-- The key in JSON. -/
  writeJson : κ → List Char
  /-- Takes a key in JSON. -/
  readJson : Json.Reader κ
  /-- The key in the binary format. -/
  writeBinary : κ → List UInt8
  /-- Whether the binary format has room for the key. -/
  fitsBinary : κ → Bool
  /-- Takes a key in the binary format. -/
  readBinary : Binary.Reader κ

instance : KeyCodec String where
  writeJson := Json.writeText
  readJson := Json.readText
  writeBinary := Binary.writeText
  fitsBinary := Binary.fitsText
  readBinary := Binary.readText

instance : KeyCodec TaggedKey where
  writeJson key := Json.writeText key.text
  readJson := Json.readText.map TaggedKey.mk
  writeBinary key := Binary.writeText key.text
  fitsBinary key := Binary.fitsText key.text
  readBinary := Binary.readText.convert fun text => some ⟨text⟩

namespace ListedKey

variable {names : List String}

/-- Takes the value of the object form behind its name, up to the closing brace. -/
def readJsonTail (characters : List Char) : Except Json.Fault (List Char) := do
  let rest ← Json.skipColon characters
  match Json.skipBlanks rest with
  | 'n' :: rest =>
      let rest ← Json.expect ['u', 'l', 'l'] rest
      match Json.skipBlanks rest with
      | [] => .error .truncated
      | '\x7d' :: rest => .ok rest
      | _ => .error .malformed
  | other => .error (Json.faultOfValue other)

/-- Takes a key in JSON. -/
def readJson : Json.Reader (ListedKey names) := fun characters =>
  match Json.skipBlanks characters with
  | [] => .error .truncated
  | '"' :: rest => Json.Reader.convert (ofName? names) Json.readBody rest
  | '\x7b' :: rest => do
      let (key, rest) ← Json.Reader.convert (ofName? names) Json.readText rest
      let rest ← readJsonTail rest
      pure (key, rest)
  | _ => .error .malformed

instance : KeyCodec (ListedKey names) where
  writeJson key := Json.writeText key.name
  readJson := readJson
  writeBinary key := Binary.writeNatural 4 key.position
  fitsBinary key := key.position.val < Word.bound32
  readBinary := (Binary.readNatural 4).convert (ofPosition? names)

end ListedKey
end Statechart
