import PointLedger.Balance

/-!
Exact values of sums and differences. Where a checked operation succeeds, and where a clamped one
stays in range, the result is the sum or the difference of the integers.
-/

namespace PointLedger

namespace Amount

theorem val_of_add? {a b sum : Amount} (added : a.add? b = some sum) :
    sum.val = a.val + b.val :=
  (ofInt?_eq_some.mp added).symm

@[simp] theorem val_zero : zero.val = 0 := rfl

theorem isPositive_iff {a : Amount} : a.isPositive = true ↔ 0 < a.val := by
  simp [isPositive]

theorem val_neg {a : Amount} (positive : 0 ≤ a.val) : a.neg.val = -a.val := by
  have upper := a.inRange.2
  unfold neg ofInt?
  rw [dif_pos ⟨by omega, by omega⟩]
  rfl

theorem val_addClamped {a b : Amount} (lower : -0x8000000000000000 ≤ a.val + b.val)
    (upper : a.val + b.val < 0x8000000000000000) : (a.addClamped b).val = a.val + b.val :=
  val_clamp_of_inRange ⟨lower, upper⟩

theorem val_subClamped {a b : Amount} (lower : -0x8000000000000000 ≤ a.val - b.val)
    (upper : a.val - b.val < 0x8000000000000000) : (a.subClamped b).val = a.val - b.val :=
  val_clamp_of_inRange ⟨lower, upper⟩

theorem val_min (a b : Amount) : (a.min b).val = Min.min a.val b.val := by
  unfold Amount.min
  split <;> omega

/-- A smaller amount can be taken off within the range. -/
theorem exists_sub?_eq_some {a b : Amount} (positive : 0 ≤ b.val) (le : b.val ≤ a.val) :
    ∃ difference, a.sub? b = some difference ∧ difference.val = a.val - b.val := by
  have upper := a.inRange.2
  exact ⟨⟨a.val - b.val, by omega⟩, ofInt?_eq_some.mpr rfl, rfl⟩

end Amount

namespace Balance

/-- A change of a balance row is exact. -/
theorem apply_eq_ok {row row' : Balance} {delta : Amount} {time : Timestamp}
    (applied : row.apply delta time = .ok row') :
    row'.balance.val = row.balance.val + delta.val ∧
      row' = { row with balance := row'.balance, updatedAt := time } := by
  unfold Balance.apply at applied
  split at applied
  · rename_i sum added
    cases applied
    exact ⟨Amount.val_of_add? added, rfl⟩
  · cases applied

theorem account_of_apply {row row' : Balance} {delta : Amount} {time : Timestamp}
    (applied : row.apply delta time = .ok row') : row'.account = row.account := by
  rw [(apply_eq_ok applied).2]
  rfl

end Balance
end PointLedger
