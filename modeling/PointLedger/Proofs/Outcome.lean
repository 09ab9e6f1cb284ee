/-!
How a computation that may fail goes on after each of its two outcomes.
-/

namespace PointLedger

variable {ε ε' α β : Type}

@[simp] theorem ok_bind (value : α) (next : α → Except ε β) :
    (Except.ok value >>= next) = next value := rfl

@[simp] theorem error_bind (error : ε) (next : α → Except ε β) :
    (Except.error error >>= next) = .error error := rfl

@[simp] theorem pure_eq_ok (value : α) : (pure value : Except ε α) = .ok value := rfl

@[simp] theorem throw_eq_error (error : ε) : (throw error : Except ε α) = .error error := rfl

@[simp] theorem mapError_ok (f : ε → ε') (value : α) :
    (Except.ok value : Except ε α).mapError f = .ok value := rfl

@[simp] theorem mapError_error (f : ε → ε') (error : ε) :
    (Except.error error : Except ε α).mapError f = .error (f error) := rfl

theorem eq_ok_of_mapError {f : ε → ε'} {outcome : Except ε α} {value : α}
    (succeeded : outcome.mapError f = .ok value) : outcome = .ok value := by
  cases outcome with
  | error failure => cases succeeded
  | ok held =>
    cases succeeded
    rfl

/-- A computation in two parts succeeds when both parts do. -/
theorem eq_ok_of_bind {outcome : Except ε α} {next : α → Except ε β} {result : β}
    (succeeded : (outcome >>= next) = .ok result) :
    ∃ value, outcome = .ok value ∧ next value = .ok result := by
  cases outcome with
  | error failure => cases succeeded
  | ok value => exact ⟨value, rfl, succeeded⟩

/-- A computation in two parts fails in the first part or in the second. -/
theorem eq_error_of_bind {outcome : Except ε α} {next : α → Except ε β} {error : ε}
    (failed : (outcome >>= next) = .error error) :
    outcome = .error error ∨ ∃ value, outcome = .ok value ∧ next value = .error error := by
  cases outcome with
  | error failure =>
    cases failed
    exact .inl rfl
  | ok value => exact .inr ⟨value, rfl, failed⟩

end PointLedger
