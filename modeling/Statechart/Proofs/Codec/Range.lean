import Statechart.Proofs.Codec.Parts

/-!
# The range of what is read

Whatever a document or a run of bytes says, the numbers of a checkpoint that is read from it
are machine words. So a checkpoint that has been read from one format can be written again.
-/

namespace Statechart

variable {α β σ κ : Type}

/-! ## The binary format -/

namespace Binary

/-- Everything that the reader takes has the property. -/
def Reader.Yields (reader : Reader α) (property : α → Prop) : Prop :=
  ∀ ⦃bytes value rest⦄, reader bytes = some (value, rest) → property value

variable
  {reader : Reader α}
  {property : α → Prop}

theorem readNatural_yields (width : Nat) :
    (readNatural width).Yields fun number => number < 256 ^ width := by
  induction width with
  | zero =>
      intro bytes number rest read
      simp only [readNatural, Option.some.injEq, Prod.mk.injEq] at read
      omega
  | succ width inductionHypothesis =>
      intro bytes number rest read
      cases bytes with
      | nil => cases read
      | cons byte bytes =>
          simp only [readNatural, Option.bind_eq_bind, Option.bind_eq_some_iff, Option.pure_def,
            Option.some.injEq, Prod.mk.injEq, Prod.exists] at read
          obtain ⟨higher, _, readHigher, rfl, _⟩ := read
          have below := inductionHypothesis readHigher
          have small : byte.toNat < 256 := byte.toNat_lt
          rw [Nat.pow_succ]
          omega

theorem readOptional_yields (yields : reader.Yields property) :
    (readOptional reader).Yields fun optional => ∀ value ∈ optional, property value := by
  intro bytes optional rest read value present
  cases bytes with
  | nil => cases read
  | cons byte bytes =>
      simp only [readOptional] at read
      split at read
      · cases read
        cases present
      split at read
      · obtain ⟨⟨inner, _⟩, readInner, same⟩ := Option.map_eq_some_iff.mp read
        cases same
        cases present
        exact yields readInner
      · cases read

variable [KeyCodec κ]

theorem readHistory_yields :
    (readHistory : Reader (History κ)).Yields fun history => history.HasRange := by
  intro bytes history rest read
  simp only [readHistory, Option.bind_eq_bind, Option.bind_eq_some_iff, Option.pure_def,
    Option.some.injEq, Prod.mk.injEq, Prod.exists] at read
  obtain ⟨_, _, _, limit, _, readLimit, rfl, _⟩ := read
  exact readOptional_yields (readNatural_yields 8) readLimit

/-- The numbers of a checkpoint that is read are machine words. -/
theorem readCheckpoint_yields :
    (readCheckpoint : Reader (Checkpoint κ)).Yields fun checkpoint => checkpoint.fits := by
  intro bytes checkpoint rest read
  simp only [readCheckpoint, Option.bind_eq_bind, Option.bind_eq_some_iff, Option.pure_def,
    Option.some.injEq, Prod.mk.injEq, Prod.exists] at read
  obtain ⟨version, _, readVersion, _, _, _, _, _, _, _, _, _, _, _, _, history, _, readHistory,
    _, _, _, rfl, _⟩ := read
  exact (Checkpoint.fits_iff _).mpr ⟨readNatural_yields 4 readVersion,
    readHistory_yields readHistory⟩

end Binary

/-! ## JSON -/

namespace Json

/-- Everything that the reader takes has the property. -/
def Reader.Yields (reader : Reader α) (property : α → Prop) : Prop :=
  ∀ ⦃characters value rest⦄, reader characters = .ok (value, rest) → property value

variable
  {reader : Reader α}
  {property : α → Prop}

theorem Reader.Yields.map
    {transform : α → β}
    {transformed : β → Prop}
    (yields : reader.Yields property)
    (transforms : ∀ value, property value → transformed (transform value)) :
    (reader.map transform).Yields transformed := by
  intro characters value rest read
  simp only [Reader.map] at read
  split at read
  · cases read
  · next inner _ readInner =>
      cases read
      exact transforms inner (yields readInner)

theorem Reader.Yields.convert
    {conversion : α → Option β}
    {converted : β → Prop}
    (yields : reader.Yields property)
    (converts : ∀ value result, property value → conversion value = some result →
      converted result) :
    (reader.convert conversion).Yields converted := by
  intro characters value rest read
  simp only [Reader.convert] at read
  split at read
  · cases read
  · next inner _ readInner =>
      split at read
      · cases read
      · next isResult =>
          cases read
          exact converts inner _ (yields readInner) isResult

theorem yields_true (reader : Reader α) : reader.Yields fun _ => True :=
  fun _ _ _ _ => trivial

theorem readNatural_yields (bound : Nat) :
    (readNatural bound).Yields fun number => number < bound := by
  intro characters number rest read
  simp only [readNatural] at read
  split at read
  · cases read
  split at read
  · split at read
    · cases read
    · split at read
      · next below =>
          cases read
          exact below
      · cases read
    · cases read
  · cases read

theorem readOptional_yields (yields : reader.Yields property) :
    (readOptional reader).Yields fun optional => ∀ value ∈ optional, property value := by
  intro characters optional rest read value present
  simp only [readOptional] at read
  split at read
  · obtain ⟨_, _, same⟩ := map_eq_ok.mp read
    cases same
    cases present
  · obtain ⟨_, readInner, same⟩ := map_eq_ok.mp read
    cases same
    cases present
    exact yields readInner

/-- Reading the member keeps a property of the slots. -/
def Member.Keeps (member : Member σ) (invariant : σ → Prop) : Prop :=
  ∀ slots, invariant slots → (member.read slots).Yields invariant

/-- A member in a slot keeps what setting the slot keeps. -/
theorem Member.keeps_slot
    {key : String}
    {get : σ → Option α}
    {set : σ → α → σ}
    {invariant : σ → Prop}
    (yields : reader.Yields property)
    (sets : ∀ slots value, invariant slots → property value → invariant (set slots value)) :
    (Member.slot key get set reader).Keeps invariant :=
  fun slots holds => yields.map fun value => sets slots value holds

theorem readMembersWithin_yields
    {members : List (Member σ)}
    {invariant : σ → Prop}
    (keeps : ∀ member ∈ members, member.Keeps invariant)
    (bound : Nat)
    (isFirst : Bool)
    {slots : σ}
    (holds : invariant slots) :
    Reader.Yields (readMembersWithin members bound isFirst slots) invariant := by
  induction bound generalizing isFirst slots with
  | zero =>
      intro characters final rest read
      cases read
  | succ bound inductionHypothesis =>
      intro characters final rest read
      simp only [readMembersWithin] at read
      split at read
      · cases read
      · cases read
        exact holds
      · split at read
        · obtain ⟨_, _, read⟩ := bind_eq_ok.mp read
          obtain ⟨_, _, read⟩ := bind_eq_ok.mp read
          exact inductionHypothesis false holds read
        · next member found =>
            split at read
            · cases read
            obtain ⟨_, _, read⟩ := bind_eq_ok.mp read
            obtain ⟨⟨filled, _⟩, readMember, read⟩ := bind_eq_ok.mp read
            have kept := keeps member (List.mem_of_find?_eq_some found) slots holds readMember
            exact inductionHypothesis false kept read

theorem readInOrder_yields
    {mayStopEarly : Bool}
    {members : List (Member σ)}
    {invariant : σ → Prop}
    (keeps : ∀ member ∈ members, member.Keeps invariant)
    (isFirst : Bool)
    {slots : σ}
    (holds : invariant slots) :
    Reader.Yields (readInOrder mayStopEarly members isFirst slots) invariant := by
  induction members generalizing isFirst slots with
  | nil =>
      intro characters final rest read
      simp only [readInOrder] at read
      obtain ⟨_, _, same⟩ := bind_eq_ok.mp read
      cases same
      exact holds
  | cons member members inductionHypothesis =>
      intro characters final rest read
      simp only [readInOrder] at read
      split at read
      · cases read
      · split at read
        · cases read
          exact holds
        · cases read
      · obtain ⟨⟨filled, _⟩, readMember, read⟩ := bind_eq_ok.mp read
        exact inductionHypothesis
          (fun other listed => keeps other (List.mem_cons_of_mem member listed)) false
          (keeps member List.mem_cons_self slots holds readMember) read

/-- What all members keep of the slots holds of them when the structure is finished. -/
theorem readStructure_yields
    (shape : Shape σ α)
    (invariant : σ → Prop)
    (keeps : ∀ member ∈ shape.members, member.Keeps invariant)
    (empty : invariant shape.empty)
    (finish : ∀ slots value, invariant slots → shape.finish slots = some value →
      property value) :
    (readStructure shape).Yields property := by
  intro characters value rest read
  simp only [readStructure] at read
  split at read
  · exact Reader.Yields.convert (readMembersWithin_yields keeps _ true empty) finish read
  · exact Reader.Yields.convert (readInOrder_yields keeps true empty) finish read
  · cases read

end Json

variable [KeyCodec κ]

theorem History.readJson_yields :
    (History.readJson : Json.Reader (History κ)).Yields History.HasRange := by
  refine Json.readStructure_yields shape
    (fun slots => ∀ limit ∈ slots.limit, ∀ bound ∈ limit, bound < Word.bound64)
    ?_ (fun _ absent => by cases absent) ?_
  · intro member listed
    simp only [shape, List.mem_cons, List.not_mem_nil, or_false] at listed
    rcases listed with rfl | rfl
    · exact Json.Member.keeps_slot (Json.yields_true _) fun _ _ holds _ => holds
    · exact Json.Member.keeps_slot (Json.readOptional_yields (Json.readNatural_yields _))
        fun _ _ _ below _ same => Option.some.inj same ▸ below
  · intro slots history holds finish
    simp only [shape, Option.bind_eq_bind, Option.bind_eq_some_iff, Option.pure_def,
      Option.some.injEq] at finish
    obtain ⟨_, _, rfl⟩ := finish
    exact fun limit isLimit =>
      holds (some limit) (Option.join_eq_some_iff.mp isLimit) limit rfl

/-- What has been read of a checkpoint so far is in range. -/
structure Checkpoint.Slots.HasRange (slots : Checkpoint.Slots κ) : Prop where
  version : ∀ version ∈ slots.version, version < Word.bound32
  history : ∀ history ∈ slots.history, history.HasRange

/-- The numbers of a checkpoint that is read are machine words. -/
theorem Checkpoint.readJson_yields :
    (Checkpoint.readJson : Json.Reader (Checkpoint κ)).Yields fun checkpoint =>
      checkpoint.fits := by
  refine Json.readStructure_yields shape Slots.HasRange ?_
    ⟨fun _ absent => (by cases absent), fun _ absent => (by cases absent)⟩ ?_
  · intro member listed
    simp only [shape, List.mem_cons, List.not_mem_nil, or_false] at listed
    rcases listed with rfl | rfl | rfl | rfl | rfl | rfl | rfl
    · exact Json.Member.keeps_slot (Json.readNatural_yields _) fun _ _ holds below =>
        ⟨fun _ same => Option.some.inj same ▸ below, holds.history⟩
    · exact Json.Member.keeps_slot (Json.yields_true _) fun _ _ holds _ =>
        ⟨holds.version, holds.history⟩
    · exact Json.Member.keeps_slot (Json.yields_true _) fun _ _ holds _ =>
        ⟨holds.version, holds.history⟩
    · exact Json.Member.keeps_slot (Json.yields_true _) fun _ _ holds _ =>
        ⟨holds.version, holds.history⟩
    · exact Json.Member.keeps_slot (Json.yields_true _) fun _ _ holds _ =>
        ⟨holds.version, holds.history⟩
    · exact Json.Member.keeps_slot History.readJson_yields fun _ _ holds inRange =>
        ⟨holds.version, fun _ same => Option.some.inj same ▸ inRange⟩
    · exact Json.Member.keeps_slot (Json.yields_true _) fun _ _ holds _ =>
        ⟨holds.version, holds.history⟩
  · intro slots checkpoint holds finish
    simp only [shape, Option.bind_eq_bind, Option.bind_eq_some_iff, Option.pure_def,
      Option.some.injEq] at finish
    obtain ⟨version, isVersion, _, _, _, _, _, _, _, _, history, isHistory, _, _, rfl⟩ := finish
    exact (fits_iff _).mpr ⟨holds.version version isVersion, holds.history history isHistory⟩

end Statechart
