/-!
# Computations that can fail

What the steps of a computation gave when all of it gave a result.
-/

namespace Statechart

/-- The steps of an `Except` computation that succeeds. -/
theorem bind_eq_ok
    {ε α β : Type}
    {first : Except ε α}
    {next : α → Except ε β}
    {result : β} :
    (first >>= next) = .ok result ↔ ∃ value, first = .ok value ∧ next value = .ok result := by
  cases first with
  | error problem => simp [bind, Except.bind]
  | ok value => simp [bind, Except.bind]

theorem map_eq_ok
    {ε α β : Type}
    {first : Except ε α}
    {transform : α → β}
    {result : β} :
    first.map transform = .ok result ↔ ∃ value, first = .ok value ∧ transform value = result := by
  cases first with
  | error problem => simp [Except.map]
  | ok value => simp [Except.map]

/-- A result that is there was no error. -/
theorem eq_ok_of_toOption
    {ε α : Type}
    {result : Except ε α}
    {value : α}
    (isThere : result.toOption = some value) :
    result = .ok value := by
  cases result with
  | error problem => contradiction
  | ok other =>
      cases isThere
      rfl

/-- A result that is not there was an error. -/
theorem eq_error_of_toOption
    {ε α : Type}
    {result : Except ε α}
    (missing : result.toOption = none) :
    ∃ problem, result = .error problem := by
  cases result with
  | error problem => exact ⟨problem, rfl⟩
  | ok value => contradiction

/-- An `Option` computation succeeds when its steps do. -/
theorem bind_eq_some
    {α β : Type}
    {first : Option α}
    {next : α → Option β}
    {value : α}
    {result : β}
    (isFirst : first = some value)
    (isNext : next value = some result) :
    (first >>= next) = some result :=
  Option.bind_eq_some_iff.mpr ⟨value, isFirst, isNext⟩

end Statechart
