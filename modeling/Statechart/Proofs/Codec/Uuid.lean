import Mathlib.Tactic.IntervalCases
import Statechart.Uuid

/-!
# Reading back identifiers

An identifier in its grouped form is read back as the same identifier.
-/

namespace Statechart
namespace Uuid

theorem hexValue?_hexDigit {value : Nat} (small : value < 16) :
    hexValue? (hexDigit value) = some value := by
  interval_cases value <;> rfl

/-- The digits of bytes spell them. -/
theorem bytesOfDigits?_flatMap (bytes : List UInt8) :
    bytesOfDigits? (bytes.flatMap byteDigits) = some bytes := by
  induction bytes with
  | nil => rfl
  | cons byte bytes inductionHypothesis =>
      have small : byte.toNat < 256 := byte.toNat_lt
      have upper := hexValue?_hexDigit (show byte.toNat / 16 < 16 by omega)
      have lower := hexValue?_hexDigit (show byte.toNat % 16 < 16 by omega)
      have whole : (16 * (byte.toNat / 16) + byte.toNat % 16).toUInt8 = byte := by
        rw [Nat.div_add_mod]
        exact UInt8.ofNat_toNat
      simp only [List.flatMap_cons, byteDigits, List.cons_append, List.nil_append,
        bytesOfDigits?, upper, lower, inductionHypothesis, Option.bind_eq_bind,
        Option.bind_some, Option.pure_def, whole]

@[simp] theorem length_byteDigits (byte : UInt8) : (byteDigits byte).length = 2 := rfl

@[simp] theorem ofBytes?_bytes (identifier : Uuid) :
    ofBytes? identifier.bytes = some identifier := by
  rw [ofBytes?, dif_pos identifier.length_bytes]

/-- Five groups joined by hyphens are taken apart again. -/
theorem ofGrouped?_eq
    {first second third fourth fifth : List Char}
    (lengthFirst : first.length = 8)
    (lengthSecond : second.length = 4)
    (lengthThird : third.length = 4)
    (lengthFourth : fourth.length = 4)
    (lengthFifth : fifth.length = 12) :
    ofGrouped?
        (first ++ '-' :: second ++ '-' :: third ++ '-' :: fourth ++ '-' :: fifth) =
      (bytesOfDigits? (first ++ second ++ third ++ fourth ++ fifth)).bind ofBytes? := by
  simp [ofGrouped?, List.drop_append, List.drop_eq_nil_of_le, lengthFirst, lengthSecond,
    lengthThird, lengthFourth, lengthFifth]

/-- The groups next to each other are all sixteen bytes. -/
theorem append_groups (identifier : Uuid) :
    (identifier.bytes.drop 0).take 4 ++ (identifier.bytes.drop 4).take 2 ++
        (identifier.bytes.drop 6).take 2 ++ (identifier.bytes.drop 8).take 2 ++
        (identifier.bytes.drop 10).take 6 =
      identifier.bytes := by
  rw [List.drop_zero, ← List.take_add, ← List.take_add, ← List.take_add, ← List.take_add,
    List.take_of_length_le (Nat.le_of_eq identifier.length_bytes)]

/-- What is written of an identifier is read back. -/
@[simp] theorem ofChars?_toChars (identifier : Uuid) :
    ofChars? identifier.toChars = some identifier := by
  have sixteen := identifier.length_bytes
  have length : identifier.toChars.length = 36 := by
    simp [toChars, List.map_const', sixteen]
  have grouped : ofGrouped? identifier.toChars = some identifier := by
    rw [toChars, ofGrouped?_eq]
    · simp only [← List.flatMap_append, append_groups, bytesOfDigits?_flatMap,
        Option.bind_some, ofBytes?_bytes]
    all_goals simp [List.map_const', sixteen]
  rw [ofChars?, length]
  exact grouped

end Uuid
end Statechart
