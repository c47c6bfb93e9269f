import Mathlib.Algebra.Group.Nat.Defs
import Statechart.Binary.Format

/-!
# Reading back the binary format

Every writer of the format has a reader that takes back what was written and leaves
whatever follows it. Numbers and lengths must fit into their widths.
-/

namespace Statechart
namespace Binary

variable {α β : Type}

/-- The reader takes exactly the written bytes, whatever follows, and makes the value of
them. -/
def Reader.TakesBack
    (reader : Reader α)
    (written : List UInt8)
    (value : α) : Prop :=
  ∀ rest, reader (written ++ rest) = some (value, rest)

namespace Reader.TakesBack

variable
  {reader : Reader α}
  {written : List UInt8}
  {value : α}

theorem eq
    (takesBack : reader.TakesBack written value)
    (rest : List UInt8) :
    reader (written ++ rest) = some (value, rest) :=
  takesBack rest

/-- With nothing behind it. -/
theorem alone (takesBack : reader.TakesBack written value) :
    reader written = some (value, []) := by
  simpa using takesBack []

/-- A conversion is applied to the value. -/
theorem convert
    (takesBack : reader.TakesBack written value)
    {conversion : α → Option β}
    {converted : β}
    (converts : conversion value = some converted) :
    (reader.convert conversion).TakesBack written converted := by
  intro rest
  simp [Reader.convert, takesBack.eq, converts]

/-- What is written decides what is read. -/
theorem value_eq
    (takesBack : reader.TakesBack written value)
    {other : α}
    (takesBackOther : reader.TakesBack written other) :
    value = other := by
  have same := takesBack.alone.symm.trans takesBackOther.alone
  simpa using same

end Reader.TakesBack

/-! ## Numbers -/

theorem readNatural_takesBack
    {width number : Nat}
    (fits : number < 256 ^ width) :
    (readNatural width).TakesBack (writeNatural width number) number := by
  induction width generalizing number with
  | zero =>
      intro rest
      have isZero : number = 0 := by simpa using fits
      simp [writeNatural, readNatural, isZero]
  | succ width inductionHypothesis =>
      intro rest
      have higherFits : number / 256 < 256 ^ width := by
        rw [Nat.pow_succ] at fits
        omega
      have lowest : (number % 256).toUInt8.toNat = number % 256 := by
        simp [Nat.toUInt8]
      simp only [writeNatural, List.cons_append, readNatural,
        (inductionHypothesis higherFits).eq, Option.bind_eq_bind, Option.bind_some,
        Option.pure_def, lowest, Nat.mod_add_div]

theorem bound32_eq : Word.bound32 = 256 ^ 4 := rfl

theorem bound64_eq : Word.bound64 = 256 ^ 8 := rfl

/-! ## Runs and texts -/

theorem readBytes_takesBack (bytes : List UInt8) :
    (readBytes bytes.length).TakesBack bytes bytes := by
  intro rest
  simp [readBytes]

theorem readRun_takesBack
    {bytes : List UInt8}
    (fits : bytes.length < Word.bound64) :
    readRun.TakesBack (writeRun bytes) bytes := by
  intro rest
  rw [writeRun, readRun, List.append_assoc, (readNatural_takesBack (bound64_eq ▸ fits)).eq]
  exact readBytes_takesBack bytes rest

theorem toList_loop_eq
    (bytes : ByteArray)
    (place : Nat)
    (reversed : List UInt8) :
    ByteArray.toList.loop bytes place reversed =
      reversed.reverse ++ bytes.data.toList.drop place := by
  induction place, reversed using ByteArray.toList.loop.induct bytes with
  | case1 place reversed below inductionHypothesis =>
      have inRange : place < bytes.data.toList.length := by simpa using below
      have present : bytes.get! place = bytes.data.toList[place] :=
        getElem!_pos bytes.data place below
      rw [ByteArray.toList.loop, if_pos below, inductionHypothesis,
        List.drop_eq_getElem_cons inRange, present, List.reverse_cons,
        List.append_assoc, List.singleton_append]
  | case2 place reversed past =>
      have outOfRange : bytes.data.toList.length ≤ place := by
        simpa using Nat.le_of_not_lt past
      rw [ByteArray.toList.loop, if_neg past, List.drop_eq_nil_of_le outOfRange]
      simp

theorem utf8_eq (text : String) : utf8 text = text.toByteArray.data.toList := by
  rw [utf8, ByteArray.toList, toList_loop_eq]
  simp

@[simp] theorem length_utf8 (text : String) : (utf8 text).length = text.utf8ByteSize := by
  rw [utf8_eq]
  rfl

@[simp] theorem ofUtf8?_utf8 (text : String) : ofUtf8? (utf8 text) = some text := by
  have bytes : (utf8 text).toByteArray = text.toByteArray := by
    rw [utf8_eq, ByteArray.ext_iff, List.data_toByteArray]
  rw [ofUtf8?, bytes, String.fromUTF8?, dif_pos text.isValidUTF8]
  rfl

theorem length_flatMap_utf8EncodeChar_le (characters : List Char) :
    (characters.flatMap String.utf8EncodeChar).length ≤ 4 * characters.length := by
  induction characters with
  | nil => exact Nat.le_refl 0
  | cons character characters inductionHypothesis =>
      have four := character.utf8Size_le_four
      rw [List.flatMap_cons, List.length_append, String.length_utf8EncodeChar,
        List.length_cons]
      omega

/-- A character takes at most four bytes. -/
theorem utf8ByteSize_ofList_le (characters : List Char) :
    (String.ofList characters).utf8ByteSize ≤ 4 * characters.length := by
  rw [← String.size_toByteArray, String.toByteArray_ofList, List.utf8Encode,
    List.size_toByteArray]
  exact length_flatMap_utf8EncodeChar_le characters

theorem readText_takesBack
    {text : String}
    (fits : fitsText text) :
    readText.TakesBack (writeText text) text := by
  have short : (utf8 text).length < Word.bound64 := by
    simpa [fitsText] using fits
  exact (readRun_takesBack short).convert (ofUtf8?_utf8 text)

/-! ## Optional values and lists -/

theorem readOptional_takesBack
    {reader : Reader α}
    {write : α → List UInt8}
    {optional : Option α}
    (takesBack : ∀ value ∈ optional, reader.TakesBack (write value) value) :
    (readOptional reader).TakesBack (writeOptional write optional) optional := by
  intro rest
  cases optional with
  | none => rfl
  | some value =>
      simp [writeOptional, readOptional, (takesBack value rfl).eq]

theorem readMany_takesBack
    {reader : Reader α}
    {write : α → List UInt8}
    {values : List α}
    (takesBack : ∀ value ∈ values, reader.TakesBack (write value) value) :
    (readMany reader values.length).TakesBack (values.flatMap write) values := by
  intro rest
  induction values with
  | nil => rfl
  | cons value values inductionHypothesis =>
      have others := inductionHypothesis fun other member =>
        takesBack other (List.mem_cons_of_mem value member)
      simp [readMany, (takesBack value List.mem_cons_self).eq, others]

theorem readList_takesBack
    {reader : Reader α}
    {write : α → List UInt8}
    {fits : α → Bool}
    {values : List α}
    (takesBack : ∀ value ∈ values, fits value → reader.TakesBack (write value) value)
    (room : fitsList fits values) :
    (readList reader).TakesBack (writeList write values) values := by
  intro rest
  simp only [fitsList, Bool.and_eq_true, decide_eq_true_eq, List.all_eq_true] at room
  rw [writeList, readList, List.append_assoc,
    (readNatural_takesBack (bound64_eq ▸ room.1)).eq]
  exact readMany_takesBack (fun value member => takesBack value member (room.2 value member))
    rest

end Binary
end Statechart
