import Statechart.Proofs.Codec.Checkpoint
import Statechart.Proofs.Codec.Stability.Binary
import Statechart.Proofs.Codec.Stability.Nesting

/-!
# Damaged checkpoints

A checkpoint is read from its document and from its bytes without a look at what stands behind
them. So neither of them can be read once it has lost its end, wherever it was cut: what is left
is not taken for a checkpoint with less in it.
-/

namespace Statechart

variable {κ : Type} [KeyCodec κ]

/-! ## State keys -/

/-- A type of state keys that are read in the same way whatever follows them. -/
class StableKeyCodec (κ : Type) [KeyCodec κ] : Prop where
  /-- Keys in JSON. -/
  readJson : (KeyCodec.readJson : Json.Reader κ).IsStable
  /-- Keys in the binary format. -/
  readBinary : (KeyCodec.readBinary : Binary.Reader κ).IsStable

instance : StableKeyCodec String where
  readJson := Json.readText_isStable
  readBinary := Binary.readText_isStable

namespace ListedKey

variable {names : List String}

theorem readJsonTail_append
    {characters rest : List Char}
    (taken : readJsonTail characters = .ok rest)
    (more : List Char) :
    readJsonTail (characters ++ more) = .ok (rest ++ more) := by
  obtain ⟨value, colon, taken⟩ := bind_eq_ok.mp taken
  refine bind_eq_ok.mpr ⟨_, Json.skipColon_append colon more, ?_⟩
  split at taken
  · next seen =>
      obtain ⟨behind, letters, taken⟩ := bind_eq_ok.mp taken
      simp only [Json.skipBlanks_append_of_eq_cons seen]
      refine bind_eq_ok.mpr ⟨_, Json.expect_append letters more, ?_⟩
      split at taken
      · cases taken
      · next closed =>
          cases taken
          simp only [Json.skipBlanks_append_of_eq_cons closed]
      · cases taken
  · cases taken

theorem readJson_isStable : (readJson : Json.Reader (ListedKey names)).IsStable := by
  intro characters key rest read more
  simp only [readJson] at read
  split at read
  · cases read
  · next seen =>
      rw [readJson, Json.skipBlanks_append_of_eq_cons seen]
      exact Json.readBody_isStable.convert _ read more
  · next seen =>
      obtain ⟨⟨value, _⟩, readName, read⟩ := bind_eq_ok.mp read
      obtain ⟨_, tail, same⟩ := bind_eq_ok.mp read
      cases same
      rw [readJson, Json.skipBlanks_append_of_eq_cons seen]
      exact bind_eq_ok.mpr ⟨_, Json.readText_isStable.convert _ readName more,
        bind_eq_ok.mpr ⟨_, readJsonTail_append tail more, rfl⟩⟩
  · cases read

instance : StableKeyCodec (ListedKey names) where
  readJson := readJson_isStable
  readBinary := (Binary.readNatural_isStable 4).convert _

end ListedKey

/-! ## The binary format -/

namespace Binary

theorem readTimestamp_isStable : readTimestamp.IsStable :=
  readText_isStable.convert Timestamp.ofText?

theorem readMetadata_isStable : readMetadata.IsStable := by
  intro bytes metadata rest read more
  simp only [readMetadata, Option.bind_eq_bind, Option.bind_eq_some_iff, Option.pure_def,
    Option.some.injEq, Prod.mk.injEq, Prod.exists] at read
  obtain ⟨_, _, createdAt, _, _, updatedAt, _, _, processed, rfl, rfl⟩ := read
  simp [readMetadata, readTimestamp_isStable createdAt more,
    readTimestamp_isStable updatedAt more, readNatural_isStable 8 processed more]

variable [StableKeyCodec κ]

theorem readKeys_isStable : (readList (KeyCodec.readBinary : Reader κ)).IsStable :=
  readList_isStable StableKeyCodec.readBinary

theorem readRecord_isStable : (readRecord : Reader (Record κ)).IsStable := by
  intro bytes record rest read more
  simp only [readRecord, Option.bind_eq_bind, Option.bind_eq_some_iff, Option.pure_def,
    Option.some.injEq, Prod.mk.injEq, Prod.exists] at read
  obtain ⟨_, _, before, _, _, after, _, _, trigger, _, _, sequence, _, _, timestamp, rfl, rfl⟩ :=
    read
  simp [readRecord, readKeys_isStable before more, readKeys_isStable after more,
    readText_isStable trigger more, readNatural_isStable 8 sequence more,
    readTimestamp_isStable timestamp more]

theorem readHistory_isStable : (readHistory : Reader (History κ)).IsStable := by
  intro bytes history rest read more
  simp only [readHistory, Option.bind_eq_bind, Option.bind_eq_some_iff, Option.pure_def,
    Option.some.injEq, Prod.mk.injEq, Prod.exists] at read
  obtain ⟨_, _, records, _, _, limit, rfl, rfl⟩ := read
  simp [readHistory, readList_isStable readRecord_isStable records more,
    readOptional_isStable (readNatural_isStable 8) limit more]

theorem readCheckpoint_isStable : (readCheckpoint : Reader (Checkpoint κ)).IsStable := by
  intro bytes checkpoint rest read more
  simp only [readCheckpoint, Option.bind_eq_bind, Option.bind_eq_some_iff, Option.pure_def,
    Option.some.injEq, Prod.mk.injEq, Prod.exists] at read
  obtain ⟨_, _, version, _, _, id, _, _, machine, _, _, timestamp, _, _, active, _, _, history,
    _, _, metadata, rfl, rfl⟩ := read
  simp [readCheckpoint, readNatural_isStable 4 version more,
    readRun_isStable.convert Uuid.ofBytes? id more, readText_isStable machine more,
    readTimestamp_isStable timestamp more, readKeys_isStable active more,
    readHistory_isStable history more, readMetadata_isStable metadata more]

end Binary

/-! ## JSON -/

theorem Json.readTimestamp_isStable : Json.readTimestamp.IsStable :=
  Json.readText_isStable.convert Timestamp.ofText?

theorem Metadata.readJson_isStable : Metadata.readJson.IsStable := by
  refine Json.readStructure_isStable fun member listed => ?_
  simp only [shape, List.mem_cons, List.not_mem_nil, or_false] at listed
  rcases listed with rfl | rfl | rfl
  · exact Json.Member.isStableInside_slot Json.readTimestamp_isStable.inside
  · exact Json.Member.isStableInside_slot Json.readTimestamp_isStable.inside
  · exact Json.Member.isStableInside_slot (Json.readNatural_isStableInside _)

variable [StableKeyCodec κ]

theorem Json.readKeys_isStable : (Json.readKeys : Json.Reader (List κ)).IsStable :=
  Json.readList_isStable StableKeyCodec.readJson.inside

theorem Record.readJson_isStable : (Record.readJson : Json.Reader (Record κ)).IsStable := by
  refine Json.readStructure_isStable fun member listed => ?_
  simp only [shape, List.mem_cons, List.not_mem_nil, or_false] at listed
  rcases listed with rfl | rfl | rfl | rfl | rfl
  · exact Json.Member.isStableInside_slot Json.readKeys_isStable.inside
  · exact Json.Member.isStableInside_slot Json.readKeys_isStable.inside
  · exact Json.Member.isStableInside_slot Json.readText_isStable.inside
  · exact Json.Member.isStableInside_slot (Json.readNatural_isStableInside _)
  · exact Json.Member.isStableInside_slot Json.readTimestamp_isStable.inside

theorem History.readJson_isStable : (History.readJson : Json.Reader (History κ)).IsStable := by
  refine Json.readStructure_isStable fun member listed => ?_
  simp only [shape, List.mem_cons, List.not_mem_nil, or_false] at listed
  rcases listed with rfl | rfl
  · exact Json.Member.isStableInside_slot
      (Json.readList_isStable Record.readJson_isStable.inside).inside
  · exact Json.Member.isStableInside_slot
      (Json.readOptional_isStableInside (Json.readNatural_isStableInside _) rfl)

theorem Checkpoint.readJson_isStable :
    (Checkpoint.readJson : Json.Reader (Checkpoint κ)).IsStable := by
  refine Json.readStructure_isStable fun member listed => ?_
  simp only [shape, List.mem_cons, List.not_mem_nil, or_false] at listed
  rcases listed with rfl | rfl | rfl | rfl | rfl | rfl | rfl
  · exact Json.Member.isStableInside_slot (Json.readNatural_isStableInside _)
  · exact Json.Member.isStableInside_slot (Json.readText_isStable.convert _).inside
  · exact Json.Member.isStableInside_slot Json.readText_isStable.inside
  · exact Json.Member.isStableInside_slot Json.readTimestamp_isStable.inside
  · exact Json.Member.isStableInside_slot Json.readKeys_isStable.inside
  · exact Json.Member.isStableInside_slot History.readJson_isStable.inside
  · exact Json.Member.isStableInside_slot Metadata.readJson_isStable.inside

/-! ## Damage -/

namespace Checkpoint

/-- Nothing could be read, of any version. -/
def FailsToDecode (result : Except CheckpointError (Checkpoint κ)) : Prop :=
  ∃ reason, result = .error (.deserializationFailed reason)

/-- What both formats promise of a checkpoint whose written form has been damaged at its end. The
checkpoint has a written form when its numbers, and for the bytes its lengths, are machine
words. -/
structure ResistsTruncation (checkpoint : Checkpoint κ) : Prop where
  /-- The document of the checkpoint is read as the checkpoint. Once it has lost its end nothing
  is read from it. -/
  json : checkpoint.fits →
    ∃ document, checkpoint.toJson = .ok document ∧
      ofJson document = checkpoint.checkVersion ∧
      ∀ {kept lost : String}, kept ++ lost = document → lost ≠ "" →
        FailsToDecode (ofJson kept : Except _ (Checkpoint κ))
  /-- The bytes of the checkpoint are read as the checkpoint. Once they have lost their end
  nothing is read from them, and what stands behind their end makes no difference. -/
  binary : checkpoint.fits → Binary.fitsCheckpoint checkpoint →
    ∃ bytes, checkpoint.toBinary = .ok bytes ∧
      ofBinary bytes = checkpoint.checkVersion ∧
      (∀ {kept lost}, kept ++ lost = bytes → lost ≠ [] →
        FailsToDecode (ofBinary kept : Except _ (Checkpoint κ))) ∧
      ∀ more, ofBinary (bytes ++ more) = (ofBinary bytes : Except _ (Checkpoint κ))

variable [LawfulKeyCodec κ]

/-- All of the document is taken for the checkpoint, so nothing is taken from less of it. -/
theorem failsToDecode_json
    {checkpoint : Checkpoint κ}
    {kept lost : String}
    (written : checkpoint.toJson = .ok (kept ++ lost))
    (isDamaged : lost ≠ "") :
    FailsToDecode (ofJson kept : Except _ (Checkpoint κ)) := by
  obtain ⟨small, document⟩ := toJson_eq_ok_iff.mp written
  have read := (readJson_takesBack .indented 0 small).alone
  have characters : checkpoint.writeJson .indented 0 = kept.toList ++ lost.toList := by
    rw [← String.toList_append, ← document, String.toList_ofList]
  rw [characters] at read
  obtain ⟨fault, failed⟩ := readJson_isStable.exists_eq_error read (by simpa using isDamaged)
  exact ⟨faultReason fault, by simp [ofJson, Json.readDocument, failed]⟩

theorem failsToDecode_binary
    {checkpoint : Checkpoint κ}
    {kept lost : List UInt8}
    (written : checkpoint.toBinary = .ok (kept ++ lost))
    (isDamaged : lost ≠ []) :
    FailsToDecode (ofBinary kept : Except _ (Checkpoint κ)) := by
  obtain ⟨⟨small, fits⟩, bytes⟩ := toBinary_eq_ok_iff.mp written
  have read := (Binary.readCheckpoint_takesBack small fits).alone
  rw [bytes] at read
  have failed := Binary.readCheckpoint_isStable.eq_none read isDamaged
  exact ⟨_, by rw [ofBinary, failed]⟩

omit [StableKeyCodec κ] in
/-- Nothing behind the end of the bytes is looked at. -/
theorem ofBinary_append
    {checkpoint : Checkpoint κ}
    {bytes : List UInt8}
    (written : checkpoint.toBinary = .ok bytes)
    (more : List UInt8) :
    ofBinary (bytes ++ more) = (ofBinary bytes : Except _ (Checkpoint κ)) := by
  obtain ⟨⟨small, fits⟩, rfl⟩ := toBinary_eq_ok_iff.mp written
  rw [ofBinary_eq_checkVersion written, ofBinary,
    (Binary.readCheckpoint_takesBack small fits).eq]

theorem resistsTruncation (checkpoint : Checkpoint κ) : checkpoint.ResistsTruncation where
  json small := by
    have written := toJson_eq_ok_iff.mpr ⟨small, rfl⟩
    exact ⟨_, written, ofJson_eq_checkVersion written, fun parts =>
      failsToDecode_json (parts ▸ written)⟩
  binary small fits := by
    have written := toBinary_eq_ok_iff.mpr ⟨⟨small, fits⟩, rfl⟩
    exact ⟨_, written, ofBinary_eq_checkVersion written, fun parts =>
      failsToDecode_binary (parts ▸ written), ofBinary_append written⟩

/-- No checkpoint whose keys are texts or come from a list of different names is taken for
another one when the end of its written form is missing. -/
theorem resist_truncation :
    (∀ checkpoint : Checkpoint String, checkpoint.ResistsTruncation) ∧
      ∀ names : List String, names.Nodup →
        ∀ checkpoint : Checkpoint (ListedKey names), checkpoint.ResistsTruncation := by
  refine ⟨resistsTruncation, fun names distinct checkpoint => ?_⟩
  have := ListedKey.isLawful distinct
  exact checkpoint.resistsTruncation

/-! ## Examples -/

/-- The last character is missing from a document, and the last byte of a checkpoint of a later
version, which is only turned down for its version as long as it is complete. -/
theorem resist_truncation_escaped_outdated :
    (∃ document last, escaped.toJson = .ok (document ++ String.singleton last) ∧
        ofJson (document ++ String.singleton last) = .ok escaped ∧
        FailsToDecode (ofJson document : Except _ (Checkpoint String))) ∧
      ∃ bytes last, outdated.toBinary = .ok (bytes ++ [last]) ∧
        FailsToDecode (ofBinary bytes : Except _ (Checkpoint (ListedKey ["Off", "On"]))) ∧
        (ofBinary (bytes ++ [last] ++ [0, 1]) :
            Except _ (Checkpoint (ListedKey ["Off", "On"]))) =
          .error (.unsupportedVersion 2 1) := by
  obtain ⟨texts, listed⟩ := resist_truncation
  obtain ⟨document, written, read, damaged⟩ := (texts escaped).json (by decide)
  obtain ⟨bytes, writtenBytes, readBytes, damagedBytes, goesOn⟩ :=
    (listed _ (by decide) outdated).binary (by decide) (by decide)
  obtain blank | ⟨kept, last, characters⟩ := document.toList.eq_nil_or_concat'
  · rw [String.toList_eq_nil_iff.mp blank] at read
    cases read
  obtain rfl : document = String.ofList kept ++ String.singleton last :=
    String.toList_injective (by simp [characters])
  obtain rfl | ⟨bytes, last, rfl⟩ := bytes.eq_nil_or_concat'
  · cases readBytes
  exact ⟨⟨_, _, written, read, damaged rfl (by simp)⟩,
    ⟨_, _, writtenBytes, damagedBytes rfl (by simp), (goesOn [0, 1]).trans readBytes⟩⟩

end Checkpoint
end Statechart
