import Mathlib

/-! Results that may be errors, taken apart. -/

namespace BoardRpc

variable {ε ε' α β : Type}

/-- A result that was changed succeeded before the change. -/
theorem map_eq_ok {f : α → β} {result : Except ε α} {b : β} (mapped : result.map f = .ok b) :
    ∃ a, result = .ok a ∧ f a = b := by
  -- An error stays an error under a change of values.
  cases result with
  | error => cases mapped
  | ok a => exact ⟨a, rfl, by simpa [Except.map] using mapped⟩

/-- Changing errors changes no success. -/
@[simp] theorem mapError_eq_ok {f : ε → ε'} {result : Except ε α} {a : α} :
    result.mapError f = .ok a ↔ result = .ok a := by
  -- An error is changed into an error, and a value is left alone.
  cases result <;> simp [Except.mapError]

/-- A result that is no error has a value. -/
theorem exists_of_isOk {result : Except ε α} (ok : result.isOk) : ∃ a, result = .ok a := by
  cases result with
  | error => cases ok
  | ok a => exact ⟨a, rfl⟩

/-- A result behind a test is there exactly if the test is passed. -/
theorem ite_error_eq_ok {test : Prop} [Decidable test] {result : Except ε α} {failure : ε} {a : α} :
    (if test then result else .error failure) = .ok a ↔ test ∧ result = .ok a := by
  by_cases passed : test <;> simp [passed]

end BoardRpc
