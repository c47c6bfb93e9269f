import Mathlib.Tactic.IntervalCases

/-!
# Decimal digits

The decimal digits of a number, read from the front, give the number back. They are digits
in the sense of the readers, and only zero starts with the digit zero.
-/

namespace Statechart
namespace Digits

/-- The number that digits spell behind those of a given number. -/
def value (number : Nat) (digits : List Char) : Nat :=
  digits.foldl (fun value digit => 10 * value + (digit.toNat - 48)) number

theorem toNat_digitChar {number : Nat} (small : number < 10) :
    (Nat.digitChar number).toNat - 48 = number := by
  interval_cases number <;> rfl

theorem isDigit_of_mem
    {number : Nat}
    {digit : Char}
    (member : digit ∈ Nat.toDigits 10 number) :
    digit.isDigit :=
  Nat.isDigit_of_mem_toDigits (by decide) (by decide) member

/-- The digits of a number spell it. -/
@[simp] theorem value_toDigits (number : Nat) : value 0 (Nat.toDigits 10 number) = number := by
  induction number using Nat.strongRecOn with
  | ind number inductionHypothesis =>
      rw [Nat.toDigits_eq_if (by decide)]
      split
      · next small => simpa [value] using toNat_digitChar small
      · next large =>
          have higher := inductionHypothesis (number / 10) (by omega)
          have lowest := toNat_digitChar (Nat.mod_lt number (show 0 < 10 by decide))
          rw [value] at higher ⊢
          rw [List.foldl_append, higher, List.foldl_cons, List.foldl_nil, lowest,
            Nat.div_add_mod]

/-- Zeros in front change nothing. -/
@[simp] theorem value_replicate_zero (count : Nat) (digits : List Char) :
    value 0 (List.replicate count '0' ++ digits) = value 0 digits := by
  induction count with
  | zero => rfl
  | succ count inductionHypothesis =>
      rw [List.replicate_succ, List.cons_append]
      exact inductionHypothesis

theorem le_value (number : Nat) (digits : List Char) : number ≤ value number digits := by
  induction digits generalizing number with
  | nil => exact Nat.le_refl number
  | cons digit digits inductionHypothesis =>
      calc
        number ≤ 10 * number + (digit.toNat - 48) := by omega
        _ ≤ value number (digit :: digits) := inductionHypothesis _

/-- Digits that start with zero have nothing behind it. -/
theorem eq_nil_of_toDigits_eq_zero_cons
    {number : Nat}
    {others : List Char}
    (starts : Nat.toDigits 10 number = '0' :: others) :
    others = [] := by
  induction number using Nat.strongRecOn generalizing others with
  | ind number inductionHypothesis =>
      rw [Nat.toDigits_eq_if (by decide)] at starts
      split at starts
      · exact (List.cons.inj starts).2.symm
      · next large =>
          -- The digits of a tenth of the number start with zero as well, so it is below ten
          -- and its only digit is zero.
          obtain ⟨front, digits⟩ : ∃ front, Nat.toDigits 10 (number / 10) = '0' :: front := by
            cases digits : Nat.toDigits 10 (number / 10) with
            | nil => exact absurd digits Nat.toDigits_ne_nil
            | cons first front =>
                rw [digits] at starts
                exact ⟨front, by rw [(List.cons.inj starts).1]⟩
          have single := inductionHypothesis (number / 10) (by omega) digits
          have isZero : number / 10 = 0 := by
            rw [← value_toDigits (number / 10), digits, single]
            rfl
          omega

/-- Digits followed by something else are taken up to there. -/
theorem takeWhile_isDigit
    {digits rest : List Char}
    (areDigits : ∀ digit ∈ digits, digit.isDigit)
    (ends : ∀ character ∈ rest.head?, character.isDigit = false) :
    (digits ++ rest).takeWhile Char.isDigit = digits := by
  rw [List.takeWhile_append_of_pos areDigits]
  cases rest with
  | nil => simp
  | cons character rest => simp [ends character rfl]

end Digits
end Statechart
