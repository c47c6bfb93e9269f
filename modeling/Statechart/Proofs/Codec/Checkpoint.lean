import Statechart.Proofs.Codec.Parts
import Statechart.Proofs.Codec.Range

/-!
# Both formats keep a checkpoint

A checkpoint is read back from its document and from its bytes with everything that it
captures. Under any version but the supported one the version is turned down, and nothing
else. So what is written tells checkpoints apart, and a checkpoint that went through one
format comes out of the other unchanged.
-/

namespace Statechart

variable {κ : Type} [KeyCodec κ]

namespace Checkpoint

/-- What was written is read as the checkpoint itself under the supported version, and
turned down for the version of the checkpoint under any other. -/
structure Recovers
    (result : Except CheckpointError (Checkpoint κ))
    (checkpoint : Checkpoint κ) : Prop where
  supported : checkpoint.version = supportedVersion → result = .ok checkpoint
  unsupported : checkpoint.version ≠ supportedVersion →
    result = .error (.unsupportedVersion checkpoint.version supportedVersion)

/-- What both formats promise of a checkpoint. Its numbers have to be machine words for the
document, and its texts and lists have to be of a length that is a machine word for the
bytes. -/
structure SurvivesCodecs (checkpoint : Checkpoint κ) : Prop where
  /-- The checkpoint is read back from its document. -/
  json : checkpoint.fits →
    ∃ document, checkpoint.toJson = .ok document ∧ Recovers (ofJson document) checkpoint
  /-- The checkpoint is read back from its bytes. -/
  binary : checkpoint.fits → Binary.fitsCheckpoint checkpoint →
    ∃ bytes, checkpoint.toBinary = .ok bytes ∧ Recovers (ofBinary bytes) checkpoint
  /-- No other checkpoint has the same document. -/
  json_injective : ∀ {other : Checkpoint κ} {document},
    checkpoint.toJson = .ok document → other.toJson = .ok document → checkpoint = other
  /-- No other checkpoint has the same bytes. -/
  binary_injective : ∀ {other : Checkpoint κ} {bytes},
    checkpoint.toBinary = .ok bytes → other.toBinary = .ok bytes → checkpoint = other
  /-- Read from any document, the checkpoint comes out of the bytes unchanged. -/
  through_binary : ∀ {document}, ofJson document = .ok checkpoint →
    Binary.fitsCheckpoint checkpoint →
    ∃ bytes, checkpoint.toBinary = .ok bytes ∧ ofBinary bytes = .ok checkpoint
  /-- Read from any bytes, the checkpoint comes out of a document unchanged. -/
  through_json : ∀ {bytes}, ofBinary bytes = .ok checkpoint →
    ∃ document, checkpoint.toJson = .ok document ∧ ofJson document = .ok checkpoint

omit [KeyCodec κ] in
theorem recovers_checkVersion (checkpoint : Checkpoint κ) :
    Recovers checkpoint.checkVersion checkpoint where
  supported same := if_pos same
  unsupported differs := if_neg differs

omit [KeyCodec κ] in
/-- A checkpoint that passes the check of the version is unchanged and of the supported
version. -/
theorem checkVersion_eq_ok
    {checkpoint passed : Checkpoint κ}
    (passes : checkpoint.checkVersion = .ok passed) :
    checkpoint = passed ∧ passed.version = supportedVersion := by
  rw [checkVersion] at passes
  split at passes
  · next supported =>
      cases passes
      exact ⟨rfl, supported⟩
  · cases passes

/-- What is read from a document fits into one again. -/
theorem fits_of_ofJson
    {document : String}
    {checkpoint : Checkpoint κ}
    (read : ofJson document = .ok checkpoint) :
    checkpoint.fits ∧ checkpoint.version = supportedVersion := by
  simp only [ofJson] at read
  split at read
  · cases read
  · next readAll =>
      obtain ⟨rfl, supported⟩ := checkVersion_eq_ok read
      simp only [Json.readDocument] at readAll
      split at readAll
      · cases readAll
      · next readValue =>
          split at readAll
          · cases readAll
            exact ⟨readJson_yields readValue, supported⟩
          · cases readAll

/-- What is read from bytes fits into a document. -/
theorem fits_of_ofBinary
    {bytes : List UInt8}
    {checkpoint : Checkpoint κ}
    (read : ofBinary bytes = .ok checkpoint) :
    checkpoint.fits ∧ checkpoint.version = supportedVersion := by
  simp only [ofBinary] at read
  split at read
  · cases read
  · next readAll =>
      obtain ⟨rfl, supported⟩ := checkVersion_eq_ok read
      exact ⟨Binary.readCheckpoint_yields readAll, supported⟩

theorem toJson_eq_ok_iff {checkpoint : Checkpoint κ} {document : String} :
    checkpoint.toJson = .ok document ↔
      checkpoint.fits ∧ String.ofList (checkpoint.writeJson .indented 0) = document := by
  rw [toJson]
  split
  · next small => simp [small]
  · next large => simp [large]

theorem toBinary_eq_ok_iff {checkpoint : Checkpoint κ} {bytes : List UInt8} :
    checkpoint.toBinary = .ok bytes ↔
      (checkpoint.fits ∧ Binary.fitsCheckpoint checkpoint) ∧
        Binary.writeCheckpoint checkpoint = bytes := by
  rw [toBinary]
  split
  · next small => simpa using fun _ => small
  · next large => simpa using fun small fits => absurd (by simp [small, fits]) large

variable [LawfulKeyCodec κ]

/-- The document of a checkpoint is read as the checkpoint, up to its version. -/
theorem ofJson_eq_checkVersion
    {checkpoint : Checkpoint κ}
    {document : String}
    (written : checkpoint.toJson = .ok document) :
    ofJson document = checkpoint.checkVersion := by
  obtain ⟨small, rfl⟩ := toJson_eq_ok_iff.mp written
  rw [ofJson, Json.readDocument_eq (readJson_takesBack .indented 0 small)]

/-- The bytes of a checkpoint are read as the checkpoint, up to its version. -/
theorem ofBinary_eq_checkVersion
    {checkpoint : Checkpoint κ}
    {bytes : List UInt8}
    (written : checkpoint.toBinary = .ok bytes) :
    ofBinary bytes = checkpoint.checkVersion := by
  obtain ⟨⟨small, fits⟩, rfl⟩ := toBinary_eq_ok_iff.mp written
  rw [ofBinary, (Binary.readCheckpoint_takesBack small fits).alone]

theorem eq_of_toJson
    {checkpoint other : Checkpoint κ}
    {document : String}
    (written : checkpoint.toJson = .ok document)
    (writtenOther : other.toJson = .ok document) :
    checkpoint = other := by
  obtain ⟨small, same⟩ := toJson_eq_ok_iff.mp written
  obtain ⟨smallOther, sameOther⟩ := toJson_eq_ok_iff.mp writtenOther
  have text := String.ofList_inj.mp (same.trans sameOther.symm)
  have readOther := readJson_takesBack .indented 0 smallOther
  rw [← text] at readOther
  exact (readJson_takesBack .indented 0 small).value_eq readOther

theorem eq_of_toBinary
    {checkpoint other : Checkpoint κ}
    {bytes : List UInt8}
    (written : checkpoint.toBinary = .ok bytes)
    (writtenOther : other.toBinary = .ok bytes) :
    checkpoint = other := by
  obtain ⟨⟨small, fits⟩, same⟩ := toBinary_eq_ok_iff.mp written
  obtain ⟨⟨smallOther, fitsOther⟩, sameOther⟩ := toBinary_eq_ok_iff.mp writtenOther
  have readOther := Binary.readCheckpoint_takesBack smallOther fitsOther
  rw [sameOther.trans same.symm] at readOther
  exact (Binary.readCheckpoint_takesBack small fits).value_eq readOther

/-- Where every key is read back, so is every checkpoint. -/
theorem survivesCodecs (checkpoint : Checkpoint κ) : checkpoint.SurvivesCodecs where
  json small := by
    have written := toJson_eq_ok_iff.mpr ⟨small, rfl⟩
    exact ⟨_, written, ofJson_eq_checkVersion written ▸ recovers_checkVersion checkpoint⟩
  binary small fits := by
    have written := toBinary_eq_ok_iff.mpr ⟨⟨small, fits⟩, rfl⟩
    exact ⟨_, written, ofBinary_eq_checkVersion written ▸ recovers_checkVersion checkpoint⟩
  json_injective := eq_of_toJson
  binary_injective := eq_of_toBinary
  through_binary read fits := by
    obtain ⟨small, supported⟩ := fits_of_ofJson read
    have written := toBinary_eq_ok_iff.mpr ⟨⟨small, fits⟩, rfl⟩
    exact ⟨_, written, (ofBinary_eq_checkVersion written).trans (if_pos supported)⟩
  through_json read := by
    obtain ⟨small, supported⟩ := fits_of_ofBinary read
    have written := toJson_eq_ok_iff.mpr ⟨small, rfl⟩
    exact ⟨_, written, (ofJson_eq_checkVersion written).trans (if_pos supported)⟩

/-- Both formats keep every checkpoint whose keys are texts or come from a list of different
names. -/
theorem survive_both_formats :
    (∀ checkpoint : Checkpoint String, checkpoint.SurvivesCodecs) ∧
      ∀ names : List String, names.Nodup →
        ∀ checkpoint : Checkpoint (ListedKey names), checkpoint.SurvivesCodecs := by
  refine ⟨survivesCodecs, fun names distinct checkpoint => ?_⟩
  have := ListedKey.isLawful distinct
  exact checkpoint.survivesCodecs

/-! ## An example -/

/-- A moment in a leap second, to the nanosecond. -/
def leapSecond : Timestamp :=
  ⟨⟨2016, 12, 31, by decide, by decide, by decide⟩, 86399, 1000000001, by decide, by decide,
    by decide⟩

/-- A captured machine with a limited history whose names and triggers need escapes. -/
def escaped : Checkpoint String where
  version := supportedVersion
  id := .nil
  machine := "lamp \"A\"\n\x01é"
  timestamp := leapSecond
  active := ["on", ""]
  history := ⟨[⟨["off"], ["on", ""], "Press\\", 18446744073709551615, leapSecond⟩], some 1⟩
  metadata := ⟨leapSecond, leapSecond, 0⟩

/-- A checkpoint of a later version whose keys come from a list. -/
def outdated : Checkpoint (ListedKey ["Off", "On"]) where
  version := 2
  id := .nil
  machine := ""
  timestamp := leapSecond
  active := [⟨1⟩]
  history := .empty none
  metadata := ⟨leapSecond, leapSecond, 7⟩

theorem survive_both_formats_escaped_outdated :
    (∃ document, escaped.toJson = .ok document ∧ ofJson document = .ok escaped) ∧
      (∃ bytes, escaped.toBinary = .ok bytes ∧ ofBinary bytes = .ok escaped) ∧
      (∃ document, outdated.toJson = .ok document ∧
        (ofJson document : Except _ (Checkpoint (ListedKey ["Off", "On"]))) =
          .error (.unsupportedVersion 2 1)) ∧
      ∃ bytes, outdated.toBinary = .ok bytes ∧
        (ofBinary bytes : Except _ (Checkpoint (ListedKey ["Off", "On"]))) =
          .error (.unsupportedVersion 2 1) := by
  obtain ⟨texts, listed⟩ := survive_both_formats
  have distinct : ["Off", "On"].Nodup := by decide
  obtain ⟨document, written, recovers⟩ := (texts escaped).json (by decide)
  obtain ⟨bytes, writtenBytes, recoversBytes⟩ := (texts escaped).binary (by decide) (by decide)
  obtain ⟨late, writtenLate, recoversLate⟩ := (listed _ distinct outdated).json (by decide)
  obtain ⟨lateBytes, writtenLateBytes, recoversLateBytes⟩ :=
    (listed _ distinct outdated).binary (by decide) (by decide)
  exact ⟨⟨document, written, recovers.supported rfl⟩,
    ⟨bytes, writtenBytes, recoversBytes.supported rfl⟩,
    ⟨late, writtenLate, recoversLate.unsupported (by decide)⟩,
    ⟨lateBytes, writtenLateBytes, recoversLateBytes.unsupported (by decide)⟩⟩

end Checkpoint
end Statechart
