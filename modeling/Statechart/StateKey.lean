import Statechart.Inspect

/-!
# State keys

A state is identified by a key. Every key has a name, which is what error texts show.
Different keys may share a name. Three kinds of key are provided: plain texts, texts
with a tag that is not part of the name, and the members of a fixed list of names.
-/

namespace Statechart

/-- A type of state keys: every key has a name besides its inspection text. -/
class StateKey (κ : Type) extends Inspect κ where
  /-- The name shown in error texts. -/
  name : κ → String

/-- A plain text is its own name. -/
instance : StateKey String where
  name := id

/-- A key written as a name and an optional tag after the first `#`. Keys are compared
and inspected as written. -/
structure TaggedKey where
  text : String
  deriving DecidableEq

namespace TaggedKey

/-- The text before the first `#`. -/
def name (key : TaggedKey) : String :=
  String.ofList (key.text.toList.takeWhile (· != '#'))

instance : StateKey TaggedKey where
  inspect key := inspect key.text
  name := name

end TaggedKey

/-- A key from a fixed list of names, given by its position. It is inspected by its bare
name. -/
structure ListedKey (names : List String) where
  position : Fin names.length
  deriving DecidableEq

namespace ListedKey

/-- The name at the key's position. -/
def name (key : ListedKey names) : String :=
  names[key.position]

/-- The key of the first entry with the given name. -/
def ofName? (names : List String) (text : String) : Option (ListedKey names) :=
  (names.finIdxOf? text).map fun position => ⟨position⟩

/-- The key at a position, if the list is that long. -/
def ofPosition? (names : List String) (position : Nat) : Option (ListedKey names) :=
  if inRange : position < names.length then some ⟨position, inRange⟩ else none

instance : StateKey (ListedKey names) where
  inspect := name
  name := name

end ListedKey
end Statechart
