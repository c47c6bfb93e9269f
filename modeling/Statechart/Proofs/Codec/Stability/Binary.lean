import Statechart.Proofs.Codec.Binary

/-!
# Stable reading of the binary format

A length or a presence byte says how much belongs to a value, so a reader never looks at what
stands behind the value. Where it takes all of some bytes, it must fail on every strict prefix of
them: there it would leave the rest of them untouched.
-/

namespace Statechart
namespace Binary

variable {α β : Type}

/-- What the reader takes it takes in the same way in front of anything else. -/
def Reader.IsStable (reader : Reader α) : Prop :=
  ∀ ⦃bytes value rest⦄, reader bytes = some (value, rest) →
    ∀ more, reader (bytes ++ more) = some (value, rest ++ more)

namespace Reader.IsStable

variable {reader : Reader α}

theorem convert (stable : reader.IsStable) (conversion : α → Option β) :
    (reader.convert conversion).IsStable := by
  intro bytes converted rest read more
  simp only [Reader.convert, Option.bind_eq_bind, Option.bind_eq_some_iff, Option.pure_def,
    Option.some.injEq, Prod.mk.injEq, Prod.exists] at read
  obtain ⟨value, _, readValue, _, converts, rfl, rfl⟩ := read
  simp [Reader.convert, stable readValue more, converts]

/-- When the reader takes all of some bytes, it takes nothing once they have lost their end. -/
theorem eq_none
    (stable : reader.IsStable)
    {kept lost : List UInt8}
    {value : α}
    (read : reader (kept ++ lost) = some (value, []))
    (isDamaged : lost ≠ []) :
    reader kept = none := by
  cases readKept : reader kept with
  | none => rfl
  | some taken =>
      have same := (stable readKept lost).symm.trans read
      simp [isDamaged] at same

end Reader.IsStable

/-! ## Numbers, runs and texts -/

theorem readNatural_isStable (width : Nat) : (readNatural width).IsStable := by
  induction width with
  | zero =>
      intro bytes number rest read more
      cases read
      rfl
  | succ width inductionHypothesis =>
      intro bytes number rest read more
      cases bytes with
      | nil => cases read
      | cons byte bytes =>
          simp only [readNatural, Option.bind_eq_bind, Option.bind_eq_some_iff, Option.pure_def,
            Option.some.injEq, Prod.mk.injEq, Prod.exists] at read
          obtain ⟨higher, _, readHigher, rfl, rfl⟩ := read
          simp [readNatural, inductionHypothesis readHigher more]

theorem readBytes_isStable (count : Nat) : (readBytes count).IsStable := by
  intro bytes taken rest read more
  simp only [readBytes] at read
  split at read
  · cases read
  · next enough =>
      have enough : count ≤ bytes.length := Nat.le_of_not_lt enough
      have enoughAll : ¬ (bytes ++ more).length < count := by
        rw [List.length_append]
        omega
      cases read
      rw [readBytes, if_neg enoughAll, List.take_append_of_le_length enough,
        List.drop_append_of_le_length enough]

theorem readRun_isStable : readRun.IsStable := by
  intro bytes run rest read more
  simp only [readRun, Option.bind_eq_bind, Option.bind_eq_some_iff, Prod.exists] at read
  obtain ⟨count, _, readCount, readAll⟩ := read
  simp [readRun, readNatural_isStable 8 readCount more, readBytes_isStable count readAll more]

theorem readText_isStable : readText.IsStable :=
  readRun_isStable.convert ofUtf8?

/-! ## Optional values and lists -/

variable {reader : Reader α}

theorem readOptional_isStable (stable : reader.IsStable) : (readOptional reader).IsStable := by
  intro bytes optional rest read more
  cases bytes with
  | nil => cases read
  | cons byte bytes =>
      simp only [readOptional, List.cons_append] at read ⊢
      split at read
      · next absent =>
          cases read
          rw [if_pos absent]
      · next present =>
          rw [if_neg present]
          split at read
          · next isOne =>
              obtain ⟨⟨value, _⟩, readValue, same⟩ := Option.map_eq_some_iff.mp read
              cases same
              rw [if_pos isOne, stable readValue more]
              rfl
          · cases read

theorem readMany_isStable (stable : reader.IsStable) (count : Nat) :
    (readMany reader count).IsStable := by
  induction count with
  | zero =>
      intro bytes values rest read more
      cases read
      rfl
  | succ count inductionHypothesis =>
      intro bytes values rest read more
      simp only [readMany, Option.bind_eq_bind, Option.bind_eq_some_iff, Option.pure_def,
        Option.some.injEq, Prod.mk.injEq, Prod.exists] at read
      obtain ⟨value, _, readValue, others, _, readOthers, rfl, rfl⟩ := read
      simp [readMany, stable readValue more, inductionHypothesis readOthers more]

theorem readList_isStable (stable : reader.IsStable) : (readList reader).IsStable := by
  intro bytes values rest read more
  simp only [readList, Option.bind_eq_bind, Option.bind_eq_some_iff, Prod.exists] at read
  obtain ⟨count, _, readCount, readAll⟩ := read
  simp [readList, readNatural_isStable 8 readCount more,
    readMany_isStable stable count readAll more]

end Binary
end Statechart
