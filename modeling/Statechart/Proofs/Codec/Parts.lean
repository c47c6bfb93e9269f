import Mathlib.Data.List.Nodup
import Statechart.Checkpoint.Binary
import Statechart.Checkpoint.Json
import Statechart.Proofs.Codec.Binary
import Statechart.Proofs.Codec.Nesting
import Statechart.Proofs.Codec.Timestamp
import Statechart.Proofs.Codec.Uuid

/-!
# Reading back the parts of a checkpoint

State keys, timestamps, records, histories and metadata are read back from both formats, and
so is a checkpoint of any version. All that is asked of the keys is that each of them is read
back.
-/

namespace Statechart

variable {κ : Type} [KeyCodec κ]

/-- A type of state keys of which each is read back as it was written. -/
class LawfulKeyCodec (κ : Type) [KeyCodec κ] : Prop where
  /-- Keys in JSON. -/
  readJson (key : κ) :
    (KeyCodec.readJson : Json.Reader κ).TakesBack (KeyCodec.writeJson key) key
  /-- Keys in the binary format. -/
  readBinary (key : κ) (fits : KeyCodec.fitsBinary key) :
    (KeyCodec.readBinary : Binary.Reader κ).TakesBack (KeyCodec.writeBinary key) key

/-! ## Numbers -/

/-- The limit of a history is a machine word. -/
def History.HasRange (history : History κ) : Prop :=
  ∀ limit ∈ history.limit, limit < Word.bound64

omit [KeyCodec κ] in
theorem Checkpoint.fits_iff (checkpoint : Checkpoint κ) :
    checkpoint.fits ↔ checkpoint.version < Word.bound32 ∧ checkpoint.history.HasRange := by
  have limits : (checkpoint.history.limit.all fun limit => decide (limit < Word.bound64)) ↔
      checkpoint.history.HasRange := by
    rw [History.HasRange]
    cases checkpoint.history.limit <;> simp
  simp only [fits, Bool.and_eq_true, limits, decide_eq_true_eq]

omit [KeyCodec κ] in
theorem Record.sequence_lt (record : Record κ) : record.sequence < Word.bound64 :=
  record.number.toNat_lt

omit [KeyCodec κ] in
theorem Record.ofNat_sequence (record : Record κ) :
    UInt64.ofNat record.sequence = record.number :=
  UInt64.ofNat_toNat

theorem Metadata.processed_lt (metadata : Metadata) : metadata.processed < Word.bound64 :=
  metadata.count.toNat_lt

theorem Metadata.ofNat_processed (metadata : Metadata) :
    UInt64.ofNat metadata.processed = metadata.count :=
  UInt64.ofNat_toNat

/-! ## State keys -/

instance : LawfulKeyCodec String where
  readJson := Json.readText_takesBack
  readBinary _ fits := Binary.readText_takesBack fits

namespace ListedKey

variable {names : List String}

/-- Where no name is listed twice, a name belongs to one key. -/
theorem ofName?_name (distinct : names.Nodup) (key : ListedKey names) :
    ofName? names key.name = some key := by
  have position : names.finIdxOf? key.name = some key.position := by
    refine List.finIdxOf?_eq_some_iff.mpr ⟨rfl, fun earlier before same => ?_⟩
    exact absurd (distinct.getElem_inj_iff.mp same) (Nat.ne_of_lt before)
  rw [ofName?, position]
  rfl

theorem ofPosition?_position (key : ListedKey names) :
    ofPosition? names key.position = some key := by
  rw [ofPosition?, dif_pos key.position.isLt]

theorem readJson_takesBack (distinct : names.Nodup) (key : ListedKey names) :
    (readJson : Json.Reader (ListedKey names)).TakesBack (Json.writeText key.name) key where
  starts := (Json.readText_takesBack key.name).starts
  eq {blanks rest} areBlanks _ := by
    rw [Json.writeText_append, readJson, Json.skipBlanks_append areBlanks rfl]
    simp [Json.Reader.convert, Json.readBody_escaped, ofName?_name distinct]

/-- Keys from a list in which no name occurs twice are read back. -/
theorem isLawful (distinct : names.Nodup) : LawfulKeyCodec (ListedKey names) where
  readJson := readJson_takesBack distinct
  readBinary key fits :=
    have small : key.position.val < 256 ^ 4 := of_decide_eq_true fits
    (Binary.readNatural_takesBack small).convert (ofPosition?_position key)

end ListedKey

/-! ## The binary format -/

namespace Binary

theorem readTimestamp_takesBack (timestamp : Timestamp) :
    readTimestamp.TakesBack (writeTimestamp timestamp) timestamp := by
  have size := utf8ByteSize_ofList_le timestamp.toChars
  have length := timestamp.length_toChars_le
  have short : timestamp.toText.utf8ByteSize < Word.bound64 :=
    calc
      timestamp.toText.utf8ByteSize ≤ 4 * timestamp.toChars.length := size
      _ ≤ 4 * 33 := Nat.mul_le_mul_left 4 length
      _ < Word.bound64 := by decide
  exact (readText_takesBack (by simpa [fitsText] using short)).convert
    (Timestamp.ofText?_toText timestamp)

variable [LawfulKeyCodec κ]

theorem readKeys_takesBack
    {keys : List κ}
    (fits : fitsList KeyCodec.fitsBinary keys) :
    (readList KeyCodec.readBinary).TakesBack (writeList KeyCodec.writeBinary keys) keys :=
  readList_takesBack (fun key _ => LawfulKeyCodec.readBinary key) fits

theorem readRecord_takesBack
    {record : Record κ}
    (fits : fitsRecord record) :
    readRecord.TakesBack (writeRecord record) record := by
  intro rest
  simp only [fitsRecord, Bool.and_eq_true] at fits
  obtain ⟨⟨beforeFits, afterFits⟩, triggerFits⟩ := fits
  simp only [readRecord, writeRecord, List.append_assoc, (readKeys_takesBack beforeFits).eq,
    (readKeys_takesBack afterFits).eq, (readText_takesBack triggerFits).eq,
    (readNatural_takesBack (bound64_eq ▸ record.sequence_lt)).eq,
    (readTimestamp_takesBack record.timestamp).eq, record.ofNat_sequence,
    Option.bind_eq_bind, Option.bind_some, Option.pure_def]

theorem readHistory_takesBack
    {history : History κ}
    (small : history.HasRange)
    (fits : fitsList fitsRecord history.records) :
    readHistory.TakesBack (writeHistory history) history := by
  intro rest
  have records : (readList readRecord).TakesBack (writeList writeRecord history.records)
      history.records :=
    readList_takesBack (fun _ _ => readRecord_takesBack) fits
  have limit : (readOptional (readNatural 8)).TakesBack
      (writeOptional (writeNatural 8) history.limit) history.limit :=
    readOptional_takesBack fun limit present => readNatural_takesBack (small limit present)
  simp only [readHistory, writeHistory, List.append_assoc, records.eq, limit.eq,
    Option.bind_eq_bind, Option.bind_some, Option.pure_def]

omit [KeyCodec κ] [LawfulKeyCodec κ] in
theorem readMetadata_takesBack (metadata : Metadata) :
    readMetadata.TakesBack (writeMetadata metadata) metadata := by
  intro rest
  simp only [readMetadata, writeMetadata, List.append_assoc, readTimestamp_takesBack _ _,
    (readNatural_takesBack (bound64_eq ▸ metadata.processed_lt)).eq,
    metadata.ofNat_processed, Option.bind_eq_bind, Option.bind_some, Option.pure_def]

/-- A checkpoint of any version is read back. -/
theorem readCheckpoint_takesBack
    {checkpoint : Checkpoint κ}
    (small : checkpoint.fits)
    (fits : fitsCheckpoint checkpoint) :
    readCheckpoint.TakesBack (writeCheckpoint checkpoint) checkpoint := by
  intro rest
  obtain ⟨version, history⟩ := checkpoint.fits_iff.mp small
  simp only [fitsCheckpoint, Bool.and_eq_true] at fits
  obtain ⟨⟨machineFits, activeFits⟩, recordsFit⟩ := fits
  have idFits : checkpoint.id.bytes.length < Word.bound64 := by
    rw [checkpoint.id.length_bytes]
    decide
  have id : (readRun.convert Uuid.ofBytes?).TakesBack (writeRun checkpoint.id.bytes)
      checkpoint.id :=
    (readRun_takesBack idFits).convert checkpoint.id.ofBytes?_bytes
  simp only [readCheckpoint, writeCheckpoint, List.append_assoc,
    (readNatural_takesBack (bound32_eq ▸ version)).eq, id.eq,
    (readText_takesBack machineFits).eq, (readTimestamp_takesBack checkpoint.timestamp).eq,
    (readKeys_takesBack activeFits).eq,
    (readHistory_takesBack history recordsFit).eq,
    (readMetadata_takesBack checkpoint.metadata).eq, Option.bind_eq_bind, Option.bind_some,
    Option.pure_def]

end Binary

/-! ## JSON -/

namespace Json

theorem readTimestamp_takesBack (timestamp : Timestamp) :
    readTimestamp.TakesBack (writeTimestamp timestamp) timestamp :=
  (readText_takesBack timestamp.toText).convert (Timestamp.ofText?_toText timestamp)

theorem readKeys_takesBack
    [LawfulKeyCodec κ]
    (layout : Layout)
    (depth : Nat)
    (keys : List κ) :
    readKeys.TakesBack (writeKeys layout depth keys) keys :=
  readList_takesBack fun key _ => LawfulKeyCodec.readJson key

end Json

theorem Metadata.readJson_takesBack
    (layout : Json.Layout)
    (depth : Nat)
    (metadata : Metadata) :
    Metadata.readJson.TakesBack (metadata.writeJson layout depth) metadata := by
  have small := metadata.processed_lt
  have finished : shape.finish
      ⟨some metadata.createdAt, some metadata.updatedAt, some metadata.processed⟩ =
        some metadata := by
    simp [shape, metadata.ofNat_processed]
  refine Json.readStructure_takesBack _ ?_ finished
  refine .slot rfl rfl (Json.readTimestamp_takesBack _) ?_
  refine .slot rfl rfl (Json.readTimestamp_takesBack _) ?_
  exact .slot rfl rfl (Json.readNatural_takesBack small small) (.done _)

variable [LawfulKeyCodec κ]

theorem Record.readJson_takesBack
    (layout : Json.Layout)
    (depth : Nat)
    (record : Record κ) :
    Record.readJson.TakesBack (record.writeJson layout depth) record := by
  have small := record.sequence_lt
  have finished : shape.finish
      ⟨some record.before, some record.after, some record.trigger, some record.sequence,
        some record.timestamp⟩ = some record := by
    simp [shape, record.ofNat_sequence]
  refine Json.readStructure_takesBack _ ?_ finished
  refine .slot rfl rfl (Json.readKeys_takesBack layout _ _) ?_
  refine .slot rfl rfl (Json.readKeys_takesBack layout _ _) ?_
  refine .slot rfl rfl (Json.readText_takesBack _) ?_
  refine .slot rfl rfl (Json.readNatural_takesBack small small) ?_
  exact .slot rfl rfl (Json.readTimestamp_takesBack _) (.done _)

theorem History.readJson_takesBack
    (layout : Json.Layout)
    (depth : Nat)
    {history : History κ}
    (small : history.HasRange) :
    History.readJson.TakesBack (history.writeJson layout depth) history := by
  have limit : (Json.readOptional (Json.readNatural Word.bound64)).TakesBack
      (Json.writeOptional Json.writeNatural history.limit) history.limit := by
    refine Json.readOptional_takesBack (fun limit present => ?_)
      fun limit _ => Json.head?_writeNatural_ne limit
    have below := small limit present
    exact Json.readNatural_takesBack below below
  refine Json.readStructure_takesBack ⟨some _, some _⟩ ?_ rfl
  refine .slot rfl rfl (Json.readList_takesBack fun record _ =>
    record.readJson_takesBack layout _) ?_
  exact .slot rfl rfl limit (.done _)

namespace Checkpoint

/-- A checkpoint of any version is read back. -/
theorem readJson_takesBack
    (layout : Json.Layout)
    (depth : Nat)
    {checkpoint : Checkpoint κ}
    (small : checkpoint.fits) :
    readJson.TakesBack (checkpoint.writeJson layout depth) checkpoint := by
  obtain ⟨version, history⟩ := checkpoint.fits_iff.mp small
  have id : (Json.readText.convert fun text => Uuid.ofChars? text.toList).TakesBack
      (Json.writeText checkpoint.id.toText) checkpoint.id :=
    (Json.readText_takesBack _).convert (by simp [Uuid.toText])
  refine Json.readStructure_takesBack
    ⟨some _, some _, some _, some _, some _, some _, some _⟩ ?_ rfl
  refine .slot rfl rfl (Json.readNatural_takesBack version (version.trans (by decide))) ?_
  refine .slot rfl rfl id ?_
  refine .slot rfl rfl (Json.readText_takesBack _) ?_
  refine .slot rfl rfl (Json.readTimestamp_takesBack _) ?_
  refine .slot rfl rfl (Json.readKeys_takesBack layout _ _) ?_
  refine .slot rfl rfl (History.readJson_takesBack layout _ history) ?_
  exact .slot rfl rfl (checkpoint.metadata.readJson_takesBack layout _) (.done _)

end Checkpoint
end Statechart
