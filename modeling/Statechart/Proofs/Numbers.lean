import Statechart.Word

/-!
# Counting in machine words

Events are numbered and counted in machine words. Behind the greatest word comes zero, so the
numbers are those of ordinary counting as long as there are not too many of them.
-/

namespace Statechart
namespace Word

/-- The words that follow a given one, as many as asked for. -/
def following (base : UInt64) (count : Nat) : List UInt64 :=
  (List.range count).map fun place => base + UInt64.ofNat (place + 1)

variable {base : UInt64} {count : Nat}

@[simp] theorem length_following (base : UInt64) (count : Nat) :
    (following base count).length = count := by
  simp [following]

/-- Counting can be interrupted. -/
theorem following_append (base : UInt64) (count more : Nat) :
    following base (count + more) =
      following base count ++ following (base + UInt64.ofNat count) more := by
  rw [following, List.range_add, List.map_append, List.map_map]
  refine congrArg _ (List.map_congr_left fun place _ => ?_)
  rw [Function.comp_apply, Nat.add_assoc, UInt64.ofNat_add, UInt64.add_assoc]

theorem following_one (base : UInt64) : following base 1 = [base + 1] := rfl

/-- The last of the words that follow. -/
theorem following_concat (base : UInt64) (count : Nat) :
    following base (count + 1) = following base count ++ [base + UInt64.ofNat count + 1] := by
  rw [following_append, following_one]

/-- The first of the words that follow. -/
theorem following_succ (base : UInt64) (count : Nat) :
    following base (count + 1) = (base + 1) :: following (base + 1) count := by
  rw [Nat.add_comm, following_append, following_one]
  rfl

example : following 18446744073709551614 3 = [18446744073709551615, 0, 1] := by decide

theorem ofNat_succ (count : Nat) : UInt64.ofNat (count + 1) = UInt64.ofNat count + 1 := by
  rw [UInt64.ofNat_add]
  rfl

/-- The word after some events is the number of the last of them. -/
theorem add_ofNat_succ (base : UInt64) (count : Nat) :
    base + UInt64.ofNat (count + 1) = base + UInt64.ofNat count + 1 := by
  rw [ofNat_succ, UInt64.add_assoc]

/-- A number that is not too great is that of its word. -/
theorem toNat_ofNat (few : count < bound64) : (UInt64.ofNat count).toNat = count :=
  UInt64.toNat_ofNat_of_lt' few

/-- A count that is not too great stands for itself. -/
theorem toNat_add_ofNat (few : base.toNat + count < bound64) :
    (base + UInt64.ofNat count).toNat = base.toNat + count := by
  rw [UInt64.toNat_add, toNat_ofNat (Nat.lt_of_le_of_lt (Nat.le_add_left _ _) few)]
  exact Nat.mod_eq_of_lt few

/-- As long as there are words left they are those of ordinary counting. -/
theorem map_toNat_following (few : base.toNat + count < bound64) :
    (following base count).map UInt64.toNat = List.range' (base.toNat + 1) count := by
  rw [following, List.map_map, List.range'_eq_map_range]
  refine List.map_congr_left fun place within => ?_
  have reached : base.toNat + (place + 1) < bound64 := by
    have := List.mem_range.mp within
    omega
  rw [Function.comp_apply, toNat_add_ofNat reached, Nat.add_comm place, Nat.add_assoc]

/-- Only zero comes after the greatest word. -/
theorem toNat_succ_of_pos
    {word next : UInt64}
    (next_eq : word + 1 = next)
    (positive : 0 < next.toNat) :
    word.toNat + 1 = next.toNat := by
  subst next_eq
  have within := word.toNat_lt
  rw [UInt64.toNat_add, UInt64.toNat_one] at positive ⊢
  omega

end Word
end Statechart
